import Metrology.Aggregation.RollUp
import Metrology.Proofs.Aggregation.Whole
import Metrology.Proofs.Runs

/-! # Tallies

What the counter of one formula comes to at a component when leaves show what one given store holds:
a function of the tree, in which no other formula takes part. The formulas of the library look at
their inputs only, so that stores which agree on the inputs lead to the same tallies.
-/

namespace Metrology

variable {κ : Type} [Counter κ] {catalog : Catalog}

/-! ## What counters look at -/

namespace Formula

/-- What the counter that a formula begins with can grow into. -/
inductive Counts (f : Formula κ) : κ → Prop
  | start : Counts f f.counter
  | aggregate {counter child grown : κ} (counts : Counts f counter)
      (grows : (Counter.aggregate child).after counter = .ok grown) : Counts f grown
  | aggregateLeaf {counter grown : κ} {leaf : Leaf} (counts : Counts f counter)
      (grows : (Counter.aggregateLeaf leaf).after counter = .ok grown) : Counts f grown

/-- The counters of the formula do the same at leaves that show the same for the inputs. -/
def ReadsOnly (f : Formula κ) (inputs : List String) : Prop :=
  ∀ {counter : κ}, Counts f counter → ∀ {leaf leaf' : Leaf},
    (∀ key ∈ inputs, leaf.measure key = leaf'.measure key) →
      (Counter.aggregateLeaf leaf).after counter = (Counter.aggregateLeaf leaf').after counter

/-- The formulas that come with the library, each with the metrics it gathers. -/
inductive Library : {κ : Type} → [Counter κ] → Formula κ → List String → Prop
  | sum {τ : Type} [Summand τ] (input output : String) :
      Library (sum input output : Formula (SumCounter τ)) [input]
  | average (main per output : String) : Library (average main per output) [main, per]

end Formula

namespace SumCounter

variable {τ : Type} [Summand τ] {counter grown : SumCounter τ} {leaf leaf' : Leaf}

theorem metric_of_after_offer (number : Option τ)
    (h : (offer number).after counter = .ok grown) : grown.metric = counter.metric := by
  cases number with
  | none =>
    obtain rfl := Except.ok.inj h
    rfl
  | some value =>
    rw [offer, after_add] at h
    cases sum : Summand.add? (counter.total.getD Summand.zero) value with
    | none =>
      rw [sum] at h
      contradiction
    | some total =>
      rw [sum] at h
      obtain rfl := Except.ok.inj h
      rfl

theorem after_aggregateLeaf_eq (leaf : Leaf) (counter : SumCounter τ) :
    (Counter.aggregateLeaf leaf).after counter =
      leaf.measure counter.metric >>= fun held => (offerMeasure held).after counter := by
  have run : (Counter.aggregateLeaf leaf).after counter =
      Update.after (do offerMeasure (← leaf.measure counter.metric)) counter := rfl
  rw [run]
  cases leaf.measure counter.metric <;> rfl

theorem metric_of_after_offerMeasure {held : Option Measure}
    (h : (offerMeasure held).after counter = .ok grown) : grown.metric = counter.metric := by
  cases held with
  | none =>
    obtain rfl := Except.ok.inj h
    rfl
  | some measure =>
    rw [offerMeasure] at h
    split at h
    · cases number : Summand.ofMeasure (τ := τ) measure with
      | error fault =>
        rw [number] at h
        contradiction
      | ok value =>
        rw [number] at h
        exact metric_of_after_offer (some value) h
    · obtain rfl := Except.ok.inj h
      rfl

theorem metric_of_counts {input output : String}
    (counts : (Formula.sum input output : Formula (SumCounter τ)).Counts counter) :
    counter.metric = input := by
  induction counts with
  | start => rfl
  | @aggregate _ child _ _ grows ih =>
    exact (metric_of_after_offer child.total grows).trans ih
  | @aggregateLeaf counter grown leaf _ grows ih =>
    rw [after_aggregateLeaf_eq] at grows
    cases held : leaf.measure counter.metric with
    | error fault =>
      rw [held] at grows
      contradiction
    | ok measure =>
      rw [held] at grows
      exact (metric_of_after_offerMeasure grows).trans ih

theorem readsOnly_sum (input output : String) :
    (Formula.sum input output : Formula (SumCounter τ)).ReadsOnly [input] := by
  intro counter counts leaf leaf' same
  rw [after_aggregateLeaf_eq, after_aggregateLeaf_eq, metric_of_counts counts,
    same input List.mem_cons_self]

end SumCounter

namespace AverageCounter

variable {counter grown : AverageCounter}

theorem after_aggregateLeaf_eq (leaf : Leaf) (counter : AverageCounter) :
    (Counter.aggregateLeaf leaf).after counter = do
      let main ← numberOf leaf counter.mainMetric
      let per ← numberOf leaf counter.perMetric
      return { counter with
        main := addNumber counter.main main
        per := addNumber counter.per per } := by
  have run : (Counter.aggregateLeaf leaf).after counter = Update.after (do
      let main ← numberOf leaf counter.mainMetric
      modify fun counter : AverageCounter => { counter with main := addNumber counter.main main }
      let per ← numberOf leaf counter.perMetric
      modify fun counter => { counter with per := addNumber counter.per per }) counter := rfl
  rw [run]
  cases numberOf leaf counter.mainMetric with
  | error fault => rfl
  | ok main => cases numberOf leaf counter.perMetric <;> rfl

theorem metrics_of_counts {main per output : String}
    (counts : (Formula.average main per output).Counts counter) :
    counter.mainMetric = main ∧ counter.perMetric = per := by
  induction counts with
  | start => exact ⟨rfl, rfl⟩
  | aggregate _ grows ih =>
    obtain rfl := Except.ok.inj grows
    exact ih
  | @aggregateLeaf counter grown leaf _ grows ih =>
    rw [after_aggregateLeaf_eq] at grows
    cases main : numberOf leaf counter.mainMetric with
    | error fault =>
      rw [main] at grows
      contradiction
    | ok main' =>
      cases per : numberOf leaf counter.perMetric with
      | error fault =>
        rw [main, per] at grows
        contradiction
      | ok per' =>
        rw [main, per] at grows
        obtain rfl := Except.ok.inj grows
        exact ih

theorem readsOnly_average (main per output : String) :
    (Formula.average main per output).ReadsOnly [main, per] := by
  intro counter counts leaf leaf' same
  obtain ⟨mainMetric, perMetric⟩ := metrics_of_counts counts
  rw [after_aggregateLeaf_eq, after_aggregateLeaf_eq, mainMetric, perMetric]
  rw [numberOf, numberOf, numberOf, numberOf, same main (by simp), same per (by simp)]

end AverageCounter

namespace Formula

/-- The formulas of the library look at the metrics they gather and at nothing else. -/
theorem Library.readsOnly {f : Formula κ} {inputs : List String} (library : Library f inputs) :
    ReadsOnly f inputs := by
  cases library with
  | sum input output => exact SumCounter.readsOnly_sum input output
  | average main per output => exact AverageCounter.readsOnly_average main per output

/-! ## Tallies of one formula -/

section Tally

variable (limit : DepthLimit) (start : Store catalog) (f : Formula κ)

/-- A counter at a component, fed from what the store holds if the component is a leaf of the
crawl. -/
def fed (c : Component) (counter : κ) : Option κ :=
  if limit.IsLeafDepth c.kind then
    ((Counter.aggregateLeaf (leafOf start c)).after counter).toOption
  else some counter

mutual

/-- What the counter of a formula comes to at a component, none where it fails. -/
def tally : Component → Option κ
  | .node profile children => do
    let counter ← tallyAll children f.counter
    fed limit start (.node profile children) counter

/-- What the counter of a parent comes to once those of its allowed children were added to it. -/
def tallyAll : List Component → κ → Option κ
  | [], counter => some counter
  | c :: cs, counter =>
    if limit.Allows c.kind then do
      let below ← tally c
      let counter ← ((Counter.aggregate below).after counter).toOption
      tallyAll cs counter
    else tallyAll cs counter

end

end Tally

variable {limit : DepthLimit} {start : Store catalog} {f : Formula κ}

theorem tally_node (profile : Profile) (children : List Component) :
    tally limit start f (.node profile children) =
      (tallyAll limit start f children f.counter).bind
        (fed limit start (.node profile children)) := by
  rw [tally]
  rfl

theorem tallyAll_cons_of_allows {c : Component} (allowed : limit.Allows c.kind)
    (cs : List Component) (counter : κ) :
    tallyAll limit start f (c :: cs) counter =
      (tally limit start f c).bind fun below =>
        ((Counter.aggregate below).after counter).toOption.bind (tallyAll limit start f cs) := by
  rw [tallyAll, if_pos allowed]
  rfl

theorem counts_of_tallyAll {cs : List Component} {counter tallied : κ} (counts : Counts f counter)
    (h : tallyAll limit start f cs counter = some tallied) : Counts f tallied := by
  induction cs generalizing counter with
  | nil =>
    rw [tallyAll] at h
    cases h
    exact counts
  | cons c cs ih =>
    rw [tallyAll] at h
    split at h
    · obtain ⟨below, -, h⟩ := Option.bind_eq_some_iff.mp h
      obtain ⟨grown, grows, h⟩ := Option.bind_eq_some_iff.mp h
      exact ih (counts.aggregate (Action.toOption_eq_some_iff.mp grows)) h
    · exact ih counts h

end Formula

end Metrology
