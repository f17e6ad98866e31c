import Metrology.Aggregation.Counter

/-! # Averages

An average is the quotient of two sums of doubles, for instance of complexity per function. Each of
the two sums is absent until it has seen a number.
-/

namespace Metrology

/-- The number a measure holds as a double, none if it carries no value. -/
def Measure.number (measure : Measure) : Except Fault (Option Float) :=
  match measure.value with
  | .noValue => .ok none
  | .int n => .ok (some n.toFloat)
  | .long n => .ok (some n.toFloat)
  | .double x => .ok (some x)
  | _ => .error (measure.wrongAccess .double)

/-- Adds to a sum of doubles, which counts from zero when it is absent. -/
def addNumber (total number : Option Float) : Option Float :=
  match number with
  | some x => some (total.getD 0.0 + x)
  | none => total

/-- Sums one metric and, apart from it, the metric it is divided by. -/
structure AverageCounter where
  /-- The metric that is averaged. -/
  mainMetric : String
  /-- The metric that is divided by. -/
  perMetric : String
  main : Option Float := none
  per : Option Float := none
deriving BEq

namespace AverageCounter

/-- The quotient of the two sums, if both are there and the divisor is not zero. -/
def average (counter : AverageCounter) : Option Float :=
  match counter.main, counter.per with
  | some main, some per => if per != 0.0 then some (main / per) else none
  | _, _ => none

/-- The number a leaf has for a metric. -/
def numberOf (leaf : Leaf) (metric : String) : Except Fault (Option Float) := do
  match ← leaf.measure metric with
  | some measure => measure.number
  | none => pure none

/-- The sum of the averaged metric is added to before the divisor is looked at. -/
instance : Counter AverageCounter where
  aggregate child :=
    modify fun counter =>
      { counter with
        main := addNumber counter.main child.main
        per := addNumber counter.per child.per }
  aggregateLeaf leaf := do
    let counter ← get
    let main ← numberOf leaf counter.mainMetric
    modify fun counter => { counter with main := addNumber counter.main main }
    let per ← numberOf leaf counter.perMetric
    modify fun counter => { counter with per := addNumber counter.per per }

end AverageCounter

end Metrology
