import Metrology.Aggregation.Average
import Metrology.Aggregation.Sum

/-! # Formulas

A formula is a rule for measures that come from the leaves: with which counter to begin at each
component, and which measures to make of the counter at the end.
-/

namespace Metrology

/-- A rule that makes measures out of counters of type `κ`. -/
structure Formula (κ : Type) where
  /-- The counter every component begins with. -/
  counter : κ
  /-- The keys of the metrics that the formula makes measures for. -/
  outputs : List String
  /-- The measure for one of these metrics at a component, or none if the counter has nothing to
  report. -/
  measure? : κ → Component → Metric → Except Fault (Option Measure)

namespace Formula

/-- A measure of the value, if there is one. -/
def measureOf (metric : Metric) : Option Value → Except Fault (Option Measure)
  | some value => do
    let measure ← Measure.of metric value
    return some measure
  | none => .ok none

/-- Sums the metric `input` and stores the sum under the metric `output`. -/
def sum {τ : Type} [Summand τ] (input output : String) : Formula (SumCounter τ) where
  counter := ⟨input, none⟩
  outputs := [output]
  measure? counter _ metric := measureOf metric (counter.total.map Summand.toValue)

/-- Divides the sum of the metric `main` by that of the metric `per` and stores the quotient under
the metric `output`. -/
def average (main per output : String) : Formula AverageCounter where
  counter := ⟨main, per, none, none⟩
  outputs := [output]
  measure? counter _ metric := measureOf metric (counter.average.map Value.double)

end Formula

end Metrology
