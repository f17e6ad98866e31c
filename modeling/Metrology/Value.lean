import Metrology.Named
import Metrology.Text.Decimal
import Metrology.Text.Quoted

/-! # Values of measures

A measure holds one value of a fixed type, or no value at all, which is never the same as zero.
-/

namespace Metrology

/-- The types of value a measure can hold. -/
inductive ValueType where
  | noValue
  | boolean
  | int
  | long
  | double
  | string
  | level
deriving DecidableEq

instance : Named ValueType where
  all := [.noValue, .boolean, .int, .long, .double, .string, .level]
  label
    | .noValue => "NO_VALUE"
    | .boolean => "BOOLEAN"
    | .int => "INT"
    | .long => "LONG"
    | .double => "DOUBLE"
    | .string => "STRING"
    | .level => "LEVEL"

/-- The verdict of a quality gate. -/
inductive Level where
  | ok
  | warn
  | error
deriving DecidableEq

instance : Named Level where
  all := [.ok, .warn, .error]
  label
    | .ok => "OK"
    | .warn => "WARN"
    | .error => "ERROR"

/-- The value of a measure. Equality of doubles is that of IEEE 754: a NaN differs from itself and
the two zeros are equal. -/
inductive Value where
  | noValue
  | boolean (value : Bool)
  | int (value : Int32)
  | long (value : Int64)
  | double (value : Float)
  | string (value : String)
  | level (value : Level)
deriving BEq

namespace Value

/-- The type of a value. -/
def type : Value → ValueType
  | .noValue => .noValue
  | .boolean _ => .boolean
  | .int _ => .int
  | .long _ => .long
  | .double _ => .double
  | .string _ => .string
  | .level _ => .level

/-- Whether a measure of the given type may hold the value: no value fits every type. -/
def Fits (value : Value) (expected : ValueType) : Prop :=
  value.type = .noValue ∨ value.type = expected

instance (value : Value) (expected : ValueType) : Decidable (value.Fits expected) :=
  inferInstanceAs (Decidable (_ ∨ _))

/-- The value as the log shows it. -/
def describe : Value → String
  | .noValue => "NoValue"
  | .boolean b => s!"Boolean({b})"
  | .int n => s!"Int({n.toInt})"
  | .long n => s!"Long({n.toInt})"
  | .double x => s!"Double({Text.double x})"
  | .string s => s!"String({Text.quoted s})"
  | .level .ok => "Level(Ok)"
  | .level .warn => "Level(Warn)"
  | .level .error => "Level(Error)"

end Value

end Metrology
