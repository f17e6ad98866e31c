import Metrology.Aggregation.Counter

/-! # Sums

A sum counter adds up the values of one metric. As long as it has seen no value it has no sum; this
is not the same as a sum of zero. Sums of whole numbers fail rather than leave their type.
-/

namespace Metrology

/-- Types of numbers that can be summed. -/
class Summand (τ : Type) where
  zero : τ
  /-- The sum of two numbers, unless it leaves the type. -/
  add? : τ → τ → Option τ
  /-- The number a measure holds. -/
  ofMeasure : Measure → Except Fault τ
  toValue : τ → Value

/-- The sum of two 32-bit numbers, unless it leaves 32 bits. -/
def sum32? (a b : Int32) : Option Int32 :=
  let sum := a.toInt + b.toInt
  if Int32.minValue.toInt ≤ sum ∧ sum ≤ Int32.maxValue.toInt then some (Int32.ofInt sum) else none

/-- The sum of two 64-bit numbers, unless it leaves 64 bits. -/
def sum64? (a b : Int64) : Option Int64 :=
  let sum := a.toInt + b.toInt
  if Int64.minValue.toInt ≤ sum ∧ sum ≤ Int64.maxValue.toInt then some (Int64.ofInt sum) else none

instance : Summand Int32 where
  zero := 0
  add? := sum32?
  ofMeasure := Measure.int
  toValue := Value.int

instance : Summand Int64 where
  zero := 0
  add? := sum64?
  ofMeasure := Measure.long
  toValue := Value.long

instance : Summand Float where
  zero := 0.0
  add? a b := some (a + b)
  ofMeasure := Measure.double
  toValue := Value.double

/-- Sums the values of one metric. -/
structure SumCounter (τ : Type) where
  /-- The metric that is summed. -/
  metric : String
  /-- The sum of the values seen, none before the first. -/
  total : Option τ := none
deriving BEq

namespace SumCounter

variable {τ : Type} [Summand τ]

/-- Adds a value; a sum that leaves its type is refused and the counter stays. -/
def add (value : τ) : Update (SumCounter τ) Unit := do
  let counter ← get
  match Summand.add? (counter.total.getD Summand.zero) value with
  | some sum => set { counter with total := some sum }
  | none => throw (.sumOverflow counter.metric)

instance : Counter (SumCounter τ) where
  aggregate child :=
    match child.total with
    | some value => add value
    | none => pure ()
  aggregateLeaf leaf := do
    let counter ← get
    match ← leaf.measure counter.metric with
    | some measure =>
      if measure.hasValue then do
        let value ← Summand.ofMeasure measure
        add value
      else pure ()
    | none => pure ()

end SumCounter

end Metrology
