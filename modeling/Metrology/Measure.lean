import Metrology.Fault
import Metrology.Metric

/-! # Measures

A measure pairs the key of a metric with a value, or with the statement that there is none.
-/

namespace Metrology

/-- A value measured for one metric. -/
structure Measure where
  /-- The key of the metric. -/
  metric : String
  value : Value
deriving BEq

namespace Measure

/-- A measure of `metric`; the value must fit the type the metric declares. -/
def of (metric : Metric) (value : Value) : Except Fault Measure :=
  if value.Fits metric.valueType then .ok ⟨metric.key, value⟩
  else .error (.valueTypeMismatch metric.key metric.valueType value.type)

/-- A measure of `metric` that carries no value. -/
def blank (metric : Metric) : Measure :=
  ⟨metric.key, .noValue⟩

def valueType (measure : Measure) : ValueType :=
  measure.value.type

/-- Whether the measure carries a value. -/
def hasValue (measure : Measure) : Bool :=
  measure.value.type != .noValue

/-- The fault of asking for a value of a type the measure does not hold. -/
def wrongAccess (measure : Measure) (requested : ValueType) : Fault :=
  .wrongValueAccess requested measure.valueType

def boolean (measure : Measure) : Except Fault Bool :=
  match measure.value with
  | .boolean b => .ok b
  | _ => .error (measure.wrongAccess .boolean)

def int (measure : Measure) : Except Fault Int32 :=
  match measure.value with
  | .int n => .ok n
  | _ => .error (measure.wrongAccess .int)

def long (measure : Measure) : Except Fault Int64 :=
  match measure.value with
  | .long n => .ok n
  | _ => .error (measure.wrongAccess .long)

def double (measure : Measure) : Except Fault Float :=
  match measure.value with
  | .double x => .ok x
  | _ => .error (measure.wrongAccess .double)

def string (measure : Measure) : Except Fault String :=
  match measure.value with
  | .string s => .ok s
  | _ => .error (measure.wrongAccess .string)

def level (measure : Measure) : Except Fault Level :=
  match measure.value with
  | .level l => .ok l
  | _ => .error (measure.wrongAccess .level)

end Measure

end Metrology
