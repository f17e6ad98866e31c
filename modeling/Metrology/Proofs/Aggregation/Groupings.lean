import Mathlib.Algebra.BigOperators.Group.List.Basic
import Mathlib.Algebra.Order.BigOperators.Group.List
import Mathlib.Data.List.Perm.Subperm
import Metrology.Proofs.Aggregation.Whole

/-! # Orders and groupings of sums

The numbers of leaves can be summed in any order and by way of any counters in between. A sum that
is reached is the exact one, whichever way it was reached. Every counter on the way has to hold its
partial sums, though, and a way fails exactly if one of these leaves the type. Numbers of both signs
can so make one way fail and another succeed.
-/

namespace Metrology

variable {τ : Type} [Whole τ] {metric : String}

/-- A leaf that has nothing for the metric, or a measure without a value, or one with a number of
the type. -/
structure NumberLeaf (τ : Type) [Whole τ] (metric : String) where
  leaf : Leaf
  held : Option Measure
  reads : leaf.measure metric = .ok held
  fits : ∀ measure, held = some measure → measure.value.Fits (Whole.valueType τ)

/-- The number that the leaf has for the metric. -/
def NumberLeaf.number? (own : NumberLeaf τ metric) : Option Int :=
  own.held.bind fun measure => measure.value.whole?

/-- A way to sum up the numbers of leaves: a counter that is fed from a leaf, or one to which other
counters are added in order. A counter with no parts never sees a number. -/
inductive Grouping (τ : Type) [Whole τ] (metric : String) where
  | leaf (own : NumberLeaf τ metric)
  | node (parts : List (Grouping τ metric))

namespace Grouping

/-- What holds of a grouping whenever it holds of its parts holds of every grouping. -/
@[induction_eliminator]
theorem induction {P : Grouping τ metric → Prop} (leaf : ∀ own, P (.leaf own))
    (node : ∀ parts, (∀ part ∈ parts, P part) → P (.node parts)) (g : Grouping τ metric) : P g :=
  @Grouping.rec τ _ metric P (fun parts => ∀ part ∈ parts, P part) leaf node
    (fun _ mem => absurd mem List.not_mem_nil)
    (fun _ _ head tail => List.forall_mem_cons.mpr ⟨head, tail⟩) g

mutual

/-- The numbers that are summed. -/
def numbers : Grouping τ metric → List Int
  | .leaf own => own.number?.toList
  | .node parts => numbersAll parts

/-- The numbers of all parts, one part after the other. -/
def numbersAll : List (Grouping τ metric) → List Int
  | [] => []
  | part :: parts => numbers part ++ numbersAll parts

end

theorem numbersAll_eq_flatMap (parts : List (Grouping τ metric)) :
    numbersAll parts = parts.flatMap numbers := by
  induction parts with
  | nil => rfl
  | cons part parts ih => rw [numbersAll, ih, List.flatMap_cons]

theorem numbers_node (parts : List (Grouping τ metric)) :
    (node parts).numbers = parts.flatMap numbers := by
  rw [numbers, numbersAll_eq_flatMap]

mutual

/-- The leaves whose numbers are summed. -/
def leaves : Grouping τ metric → List (NumberLeaf τ metric)
  | .leaf own => [own]
  | .node parts => leavesAll parts

/-- The leaves of all parts, one part after the other. -/
def leavesAll : List (Grouping τ metric) → List (NumberLeaf τ metric)
  | [] => []
  | part :: parts => leaves part ++ leavesAll parts

end

theorem leavesAll_eq_flatMap (parts : List (Grouping τ metric)) :
    leavesAll parts = parts.flatMap leaves := by
  induction parts with
  | nil => rfl
  | cons part parts ih => rw [leavesAll, ih, List.flatMap_cons]

theorem numbers_eq_filterMap (g : Grouping τ metric) :
    g.numbers = g.leaves.filterMap NumberLeaf.number? := by
  induction g with
  | leaf own => cases number : own.number? <;> simp [numbers, leaves, number]
  | node parts ih =>
    rw [numbers_node, leaves, leavesAll_eq_flatMap, List.filterMap_flatMap]
    exact List.flatMap_congr ih

/-- One leaf after the other. -/
theorem numbers_node_map_leaf (own : List (NumberLeaf τ metric)) :
    (node (own.map leaf)).numbers = own.filterMap NumberLeaf.number? := by
  rw [numbers_node, List.flatMap_map]
  induction own with
  | nil => rfl
  | cons first own ih =>
    rw [List.flatMap_cons, ih]
    cases number : first.number? <;> simp [numbers, number]

mutual

/-- The counter at the end, new counters being taken wherever one is needed. -/
def aggregated : Grouping τ metric → Except Fault (SumCounter τ)
  | .leaf own => (Counter.aggregateLeaf own.leaf).after ⟨metric, none⟩
  | .node parts => aggregatedAll parts ⟨metric, none⟩

/-- The counter after those of all parts were added to it. -/
def aggregatedAll : List (Grouping τ metric) → SumCounter τ → Except Fault (SumCounter τ)
  | [], counter => .ok counter
  | part :: parts, counter => do
    let child ← aggregated part
    let counter ← (Counter.aggregate child).after counter
    aggregatedAll parts counter

end

/-- What a way of summing comes to: a number, or none if there is none to sum, or a fault. -/
def outcome (g : Grouping τ metric) : Except Fault (Option Int) :=
  g.aggregated.map fun counter => counter.total.map Whole.toInt

/-- Some counter on the way would have to hold a partial sum that is not in the type. -/
inductive Overflows : Grouping τ metric → Prop
  /-- The first parts of a counter are together too much for it. -/
  | here {earlier later : List (Grouping τ metric)}
      (leaves : ¬ InRange τ (earlier.flatMap numbers).sum) : Overflows (.node (earlier ++ later))
  | inside {parts : List (Grouping τ metric)} {part : Grouping τ metric} (mem : part ∈ parts)
      (overflows : Overflows part) : Overflows (.node parts)

end Grouping

/-! ## Partial sums -/

theorem inRange_zero : InRange τ 0 :=
  Whole.toInt_zero (τ := τ) ▸ inRange_toInt Summand.zero

/-- A sum can be taken in the place of its summands. -/
theorem exactSum?_append_exactSum? (seen own : List Int) :
    exactSum? (seen ++ (exactSum? own).toList) = exactSum? (seen ++ own) := by
  unfold exactSum?
  by_cases empty : own = []
  · simp [empty]
  · simp [empty, List.sum_append]

theorem leavesRange_exactSum? {start : Int} (inRange : InRange τ start) (own : List Int) :
    LeavesRange τ start (exactSum? own).toList ↔ ¬ InRange τ (start + own.sum) := by
  by_cases empty : own = []
  · rw [empty, exactSum?_eq_none_iff.mpr rfl, Option.toList_none, leavesRange_nil, List.sum_nil,
      Int.add_zero]
  · rw [exactSum?, if_neg empty, Option.toList_some, leavesRange_cons, leavesRange_nil]
    exact or_iff_right (not_not_intro inRange)

namespace SumCounter

/-- Adding what another counter has gathered gathers the numbers of both, unless their sum is not in
the type. -/
theorem Gathered.after_aggregate {counter child : SumCounter τ} {seen own : List Int}
    (gathered : counter.Gathered metric seen) (below : child.Gathered metric own) :
    (¬ InRange τ (seen ++ own).sum ∧
        (Counter.aggregate child).after counter = .error (.sumOverflow metric)) ∨
      InRange τ (seen ++ own).sum ∧ ∃ counter',
        (Counter.aggregate child).after counter = .ok counter' ∧
          counter'.Gathered metric (seen ++ own) := by
  have offered : (Counter.aggregate child).after counter = (offer child.total).after counter := rfl
  have offers := gathered.after_offer child.total
  rw [below.total, leavesRange_exactSum? gathered.inRange, ← List.sum_append, ← offered,
    not_not] at offers
  rcases offers with failed | ⟨fits, counter', taken, gathered'⟩
  · exact .inl failed
  · refine .inr ⟨fits, counter', taken, gathered'.sums, ?_⟩
    rw [gathered'.total, exactSum?_append_exactSum?]

end SumCounter

namespace Grouping

/-! ## Overflows -/

/-- A counter that has seen some numbers can not take all of these parts: one of them is not even
reached, or some first ones are together too much. -/
def OverflowsFrom (seen : List Int) (parts : List (Grouping τ metric)) : Prop :=
  (∃ part ∈ parts, part.Overflows) ∨
    ∃ earlier, earlier <+: parts ∧ ¬ InRange τ (seen ++ earlier.flatMap numbers).sum

theorem overflows_node_iff {parts : List (Grouping τ metric)} :
    (node parts).Overflows ↔ OverflowsFrom [] parts := by
  constructor
  · intro overflows
    cases overflows with
    | here leaves => exact .inr ⟨_, List.prefix_append .., leaves⟩
    | inside mem overflows => exact .inl ⟨_, mem, overflows⟩
  · rintro (⟨part, mem, overflows⟩ | ⟨earlier, ⟨later, rfl⟩, leaves⟩)
    · exact .inside mem overflows
    · exact .here leaves

theorem overflowsFrom_cons {seen : List Int} (inRange : InRange τ seen.sum)
    {part : Grouping τ metric} (reached : ¬ part.Overflows) (parts : List (Grouping τ metric)) :
    OverflowsFrom seen (part :: parts) ↔ OverflowsFrom (seen ++ part.numbers) parts := by
  refine or_congr ?_ ?_
  · simp [reached]
  · constructor
    · rintro ⟨earlier, isFirst, leaves⟩
      rcases List.prefix_cons_iff.mp isFirst with rfl | ⟨rest, rfl, isFirst'⟩
      · rw [List.flatMap_nil, List.append_nil] at leaves
        contradiction
      · rw [List.flatMap_cons, ← List.append_assoc] at leaves
        exact ⟨rest, isFirst', leaves⟩
    · rintro ⟨rest, isFirst, leaves⟩
      refine ⟨part :: rest, List.cons_prefix_cons.mpr ⟨rfl, isFirst⟩, ?_⟩
      rwa [List.flatMap_cons, ← List.append_assoc]

/-- A way of summing overflows and fails, or it does not and gathers all its numbers. -/
def Settles (g : Grouping τ metric) : Prop :=
  (g.Overflows ∧ g.aggregated = .error (.sumOverflow metric)) ∨
    ¬ g.Overflows ∧ ∃ counter, g.aggregated = .ok counter ∧ counter.Gathered metric g.numbers

/-- One leaf alone never overflows. -/
theorem settles_leaf (own : NumberLeaf τ metric) : (leaf own).Settles := by
  right
  constructor
  · intro overflows
    cases overflows
  · have fed : ∃ number : Option τ, number.map Whole.toInt = own.number? ∧
        (Counter.aggregateLeaf own.leaf).after ⟨metric, none⟩ =
          (SumCounter.offer number).after ⟨metric, none⟩ :=
      SumCounter.after_aggregateLeaf own.reads own.fits
    obtain ⟨number, given, fed⟩ := fed
    rcases (SumCounter.gathered_nil metric).after_offer number with
      ⟨leaves, -⟩ | ⟨-, counter, taken, gathered⟩
    · have zero : InRange τ 0 := inRange_zero
      cases number with
      | none => exact absurd zero (leavesRange_nil.mp leaves)
      | some n =>
        rw [List.sum_nil, Option.map_some, Option.toList_some, leavesRange_cons, leavesRange_nil,
          Int.zero_add] at leaves
        exact absurd leaves (by simp [zero, inRange_toInt])
    · rw [given, List.nil_append] at gathered
      exact ⟨counter, fed.trans taken, gathered⟩

theorem aggregatedAll_cons_of_ok {part : Grouping τ metric} {child : SumCounter τ}
    (ok : part.aggregated = .ok child) (parts : List (Grouping τ metric)) (counter : SumCounter τ) :
    aggregatedAll (part :: parts) counter =
      (Counter.aggregate child).after counter >>= aggregatedAll parts := by
  rw [aggregatedAll, ok]
  rfl

/-- The counter takes one part after the other until one of them is too much. -/
theorem settles_aggregatedAll {parts : List (Grouping τ metric)}
    (each : ∀ part ∈ parts, part.Settles) {counter : SumCounter τ} {seen : List Int}
    (gathered : counter.Gathered metric seen) :
    (OverflowsFrom seen parts ∧ aggregatedAll parts counter = .error (.sumOverflow metric)) ∨
      ¬ OverflowsFrom seen parts ∧ ∃ counter', aggregatedAll parts counter = .ok counter' ∧
        counter'.Gathered metric (seen ++ parts.flatMap numbers) := by
  induction parts generalizing counter seen with
  | nil =>
    right
    refine ⟨?_, counter, rfl, by rwa [List.flatMap_nil, List.append_nil]⟩
    rintro (⟨part, mem, -⟩ | ⟨earlier, isFirst, leaves⟩)
    · exact absurd mem List.not_mem_nil
    · obtain rfl := List.prefix_nil.mp isFirst
      rw [List.flatMap_nil, List.append_nil] at leaves
      exact leaves gathered.inRange
  | cons part parts ih =>
    rcases each part List.mem_cons_self with ⟨overflows, failed⟩ | ⟨reached, child, ok, own⟩
    · left
      rw [aggregatedAll, failed]
      exact ⟨.inl ⟨part, List.mem_cons_self, overflows⟩, rfl⟩
    · rw [aggregatedAll_cons_of_ok ok, overflowsFrom_cons gathered.inRange reached,
        List.flatMap_cons, ← List.append_assoc]
      rcases gathered.after_aggregate own with ⟨leaves, failed⟩ | ⟨-, counter', taken, gathered'⟩
      · left
        rw [failed]
        refine ⟨.inr ⟨[], List.nil_prefix, ?_⟩, rfl⟩
        rwa [List.flatMap_nil, List.append_nil]
      · rw [taken]
        exact ih (fun other mem => each other (List.mem_cons_of_mem _ mem)) gathered'

/-- Every way of summing overflows and fails, or gathers all its numbers. -/
theorem settles (g : Grouping τ metric) : g.Settles := by
  induction g with
  | leaf own => exact settles_leaf own
  | node parts ih =>
    rw [Settles, overflows_node_iff, numbers_node, aggregated]
    exact settles_aggregatedAll ih (SumCounter.gathered_nil metric)

/-! ## Outcomes -/

theorem outcome_of_overflows {g : Grouping τ metric} (overflows : g.Overflows) :
    g.outcome = .error (.sumOverflow metric) := by
  rcases g.settles with ⟨-, failed⟩ | ⟨reached, -⟩
  · rw [outcome, failed]
    rfl
  · exact absurd overflows reached

theorem outcome_of_not_overflows {g : Grouping τ metric} (reached : ¬ g.Overflows) :
    g.outcome = .ok (exactSum? g.numbers) := by
  rcases g.settles with ⟨overflows, -⟩ | ⟨-, counter, ok, gathered⟩
  · exact absurd overflows reached
  · rw [outcome, ok, ← gathered.total]
    rfl

theorem outcome_eq_error_iff {g : Grouping τ metric} :
    g.outcome = .error (.sumOverflow metric) ↔ g.Overflows := by
  constructor
  · intro failed
    by_contra reached
    rw [outcome_of_not_overflows reached] at failed
    contradiction
  · exact outcome_of_overflows

/-- No way of summing leads to a sum that is not in the type. -/
theorem inRange_of_not_overflows {g : Grouping τ metric} (reached : ¬ g.Overflows) :
    InRange τ g.numbers.sum := by
  rcases g.settles with ⟨overflows, -⟩ | ⟨-, counter, -, gathered⟩
  · exact absurd overflows reached
  · exact gathered.inRange

/-- Where no choice of the numbers is too much, no way of summing them overflows. -/
theorem not_overflows_of_subperm {g : Grouping τ metric}
    (fits : ∀ chosen : List Int, chosen.Subperm g.numbers → InRange τ chosen.sum) :
    ¬ g.Overflows := by
  intro overflows
  induction overflows with
  | @here earlier later leaves =>
    apply leaves
    apply fits
    rw [numbers_node, List.flatMap_append]
    exact (List.sublist_append_left ..).subperm
  | @inside parts part mem overflows ih =>
    apply ih
    intro chosen isChosen
    refine fits chosen (isChosen.trans (List.Sublist.subperm ?_))
    rw [numbers_node, List.flatMap_def]
    exact List.sublist_flatten_of_mem (List.mem_map_of_mem mem)

/-- Where a choice of the numbers is too much, there is a way of summing that begins with it. -/
theorem exists_overflows {g : Grouping τ metric} {chosen : List Int}
    (isChosen : chosen.Subperm g.numbers) (leaves : ¬ InRange τ chosen.sum) :
    ∃ other : Grouping τ metric, other.numbers.Perm g.numbers ∧ other.Overflows := by
  obtain ⟨first, perm, sublist⟩ := isChosen
  rw [numbers_eq_filterMap] at sublist
  obtain ⟨own, isOwn, rfl⟩ := List.sublist_filterMap_iff.mp sublist
  obtain ⟨rest, split⟩ := isOwn.exists_perm_append
  refine ⟨node ([node (own.map leaf)] ++ rest.map leaf), ?_, .here ?_⟩
  · have numbers_rest := numbers_node_map_leaf rest
    rw [numbers_node] at numbers_rest
    rw [numbers_node, List.flatMap_append, List.flatMap_singleton, numbers_node_map_leaf,
      numbers_rest, ← List.filterMap_append, numbers_eq_filterMap g]
    exact (split.filterMap _).symm
  · rw [List.flatMap_singleton, numbers_node_map_leaf, perm.sum_eq]
    exact leaves

end Grouping

/-- Of numbers of one sign none are too much if all together are not. -/
theorem inRange_of_sameSign {numbers chosen : List Int}
    (sameSign : (∀ n ∈ numbers, 0 ≤ n) ∨ ∀ n ∈ numbers, n ≤ 0) (inRange : InRange τ numbers.sum)
    (isChosen : chosen.Subperm numbers) : InRange τ chosen.sum := by
  obtain ⟨first, perm, sublist⟩ := isChosen
  obtain ⟨rest, split⟩ := sublist.exists_perm_append
  have zero : InRange τ 0 := inRange_zero
  have sum : numbers.sum = chosen.sum + rest.sum := by
    rw [split.sum_eq, List.sum_append, perm.sum_eq]
  have inFirst : ∀ n ∈ chosen, n ∈ numbers := fun n mem => sublist.subset (perm.mem_iff.mpr mem)
  have inRest : ∀ n ∈ rest, n ∈ numbers := fun n mem =>
    split.mem_iff.mpr (List.mem_append_right _ mem)
  rcases sameSign with positive | negative
  · have chosen_nonneg : 0 ≤ chosen.sum := List.sum_nonneg fun n mem => positive n (inFirst n mem)
    have rest_nonneg : 0 ≤ rest.sum := List.sum_nonneg fun n mem => positive n (inRest n mem)
    exact ⟨zero.1.trans chosen_nonneg, le_trans (by omega) inRange.2⟩
  · have sum_nonpos : ∀ part : List Int, (∀ n ∈ part, n ≤ 0) → part.sum ≤ 0 := fun part below =>
      (List.sum_le_card_nsmul part 0 below).trans_eq (nsmul_zero _)
    have chosen_nonpos : chosen.sum ≤ 0 := sum_nonpos chosen fun n mem => negative n (inFirst n mem)
    have rest_nonpos : rest.sum ≤ 0 := sum_nonpos rest fun n mem => negative n (inRest n mem)
    exact ⟨le_trans inRange.1 (by omega), chosen_nonpos.trans zero.2⟩

namespace Grouping

theorem exactSum?_eq_of_perm {numbers numbers' : List Int} (same : numbers.Perm numbers') :
    exactSum? numbers = exactSum? numbers' := by
  have empty : numbers = [] ↔ numbers' = [] := by
    rw [← List.length_eq_zero_iff, same.length_eq, List.length_eq_zero_iff]
  simp only [exactSum?, empty, same.sum_eq]

theorem eq_exactSum?_of_outcome {g : Grouping τ metric} {total : Option Int}
    (ok : g.outcome = .ok total) : total = exactSum? g.numbers := by
  by_cases overflows : g.Overflows
  · rw [outcome_of_overflows overflows] at ok
    contradiction
  · rw [outcome_of_not_overflows overflows] at ok
    exact (Except.ok.inj ok).symm

theorem overflows_of_not_inRange {g : Grouping τ metric} (leaves : ¬ InRange τ g.numbers.sum) :
    g.Overflows := by
  by_contra reached
  exact leaves (inRange_of_not_overflows reached)

/-- For numbers of one sign it only matters whether the sum of all of them is in the type. -/
theorem overflows_iff_of_sameSign {g : Grouping τ metric}
    (sameSign : (∀ n ∈ g.numbers, 0 ≤ n) ∨ ∀ n ∈ g.numbers, n ≤ 0) :
    g.Overflows ↔ ¬ InRange τ g.numbers.sum := by
  constructor
  · intro overflows inRange
    refine not_overflows_of_subperm (fun chosen isChosen => ?_) overflows
    exact inRange_of_sameSign sameSign inRange isChosen
  · exact overflows_of_not_inRange

/-- Two ways of summing the same numbers, in any order and by way of any counters. Each of them
comes to the exact sum or fails, and it fails exactly if some counter on the way would have to hold a
partial sum that is not in the type. So they do not contradict each other: if both come to a sum it
is the same, and if the sum of all numbers is not in the type both fail. None of the ways fails
exactly if no choice among the numbers is too much for the type. For numbers of one sign this is so
as soon as the sum of all of them is in the type, so that order and grouping make no difference. -/
theorem outcome_order_and_grouping {g g' : Grouping τ metric} (same : g.numbers.Perm g'.numbers) :
    ((g.Overflows ∧ g.outcome = .error (.sumOverflow metric)) ∨
        ¬ g.Overflows ∧ g.outcome = .ok (exactSum? g.numbers)) ∧
      (∀ total total', g.outcome = .ok total → g'.outcome = .ok total' → total = total') ∧
      (¬ InRange τ g.numbers.sum →
        g.outcome = .error (.sumOverflow metric) ∧ g'.outcome = .error (.sumOverflow metric)) ∧
      ((∀ other : Grouping τ metric, other.numbers.Perm g.numbers →
          other.outcome = .ok (exactSum? g.numbers)) ↔
        ∀ chosen : List Int, chosen.Subperm g.numbers → InRange τ chosen.sum) ∧
      (((∀ n ∈ g.numbers, 0 ≤ n) ∨ ∀ n ∈ g.numbers, n ≤ 0) →
        g.outcome = g'.outcome ∧
          (g.outcome = .error (.sumOverflow metric) ↔ ¬ InRange τ g.numbers.sum)) := by
  have sum : g.numbers.sum = g'.numbers.sum := same.sum_eq
  have exact : exactSum? g.numbers = exactSum? g'.numbers := exactSum?_eq_of_perm same
  refine ⟨?_, ?_, ?_, ?_, ?_⟩
  · by_cases overflows : g.Overflows
    · exact .inl ⟨overflows, outcome_of_overflows overflows⟩
    · exact .inr ⟨overflows, outcome_of_not_overflows overflows⟩
  · intro total total' ok ok'
    rw [eq_exactSum?_of_outcome ok, eq_exactSum?_of_outcome ok', exact]
  · intro leaves
    have overflows := overflows_of_not_inRange leaves
    have overflows' := overflows_of_not_inRange (sum ▸ leaves)
    exact ⟨outcome_of_overflows overflows, outcome_of_overflows overflows'⟩
  · constructor
    · intro all chosen isChosen
      by_contra leaves
      obtain ⟨other, perm, overflows⟩ := exists_overflows isChosen leaves
      have failed := outcome_of_overflows overflows
      rw [all other perm] at failed
      contradiction
    · intro fits other perm
      have reached : ¬ other.Overflows := not_overflows_of_subperm fun chosen isChosen =>
        fits chosen (isChosen.trans perm.subperm)
      rw [outcome_of_not_overflows reached, exactSum?_eq_of_perm perm]
  · intro sameSign
    have sameSign' : (∀ n ∈ g'.numbers, 0 ≤ n) ∨ ∀ n ∈ g'.numbers, n ≤ 0 :=
      sameSign.imp (fun each n mem => each n (same.mem_iff.mpr mem))
        fun each n mem => each n (same.mem_iff.mpr mem)
    have overflows := overflows_iff_of_sameSign sameSign
    have overflows' := overflows_iff_of_sameSign sameSign'
    refine ⟨?_, outcome_eq_error_iff.trans overflows⟩
    by_cases inRange : InRange τ g.numbers.sum
    · rw [outcome_of_not_overflows fun bad => overflows.mp bad inRange,
        outcome_of_not_overflows fun bad => overflows'.mp bad (sum ▸ inRange), exact]
    · rw [outcome_of_overflows (overflows.mpr inRange),
        outcome_of_overflows (overflows'.mpr (sum ▸ inRange))]

end Grouping

namespace GroupingWitnesses

def file : Component := .node ⟨"F", none, "F", .file ⟨1, none, none⟩ {}⟩ []

/-- A leaf that has the number. -/
def single (n : Int32) : Grouping Int32 "ncloc" :=
  .leaf
    { leaf := ⟨file, fun metric => .ok (some ⟨metric, .int n⟩)⟩
      held := some ⟨"ncloc", .int n⟩
      reads := rfl
      fits := by
        rintro measure ⟨⟩
        exact .inr rfl }

/-- Two files in a group, an empty group, and one more file. -/
def grouped : Grouping Int32 "ncloc" :=
  .node [.node [single 2, single 3], .node [], single 4]

/-- The same files in another order, without groups. -/
def ungrouped : Grouping Int32 "ncloc" := .node [single 4, single 3, single 2]

/-- None of the three files has a negative number, so that their order does not matter. -/
theorem outcome_order_and_grouping_files :
    grouped.numbers.Perm ungrouped.numbers ∧ (∀ n ∈ grouped.numbers, 0 ≤ n) ∧
      grouped.outcome = ungrouped.outcome ∧ grouped.outcome = .ok (some 9) := by
  have same : grouped.numbers.Perm ungrouped.numbers := by decide +kernel
  have positive : ∀ n ∈ grouped.numbers, 0 ≤ n := by decide +kernel
  obtain ⟨-, -, -, -, sameSign⟩ := Grouping.outcome_order_and_grouping same
  exact ⟨same, positive, (sameSign (.inl positive)).1, by decide +kernel⟩

/-- The greatest number first, then one more, then one less. -/
def upFirst : Grouping Int32 "ncloc" := .node [single 2147483647, single 1, single (-1)]

/-- The greatest number first, then one less, then one more. -/
def downFirst : Grouping Int32 "ncloc" := .node [single 2147483647, single (-1), single 1]

/-- The order of the same numbers decides whether they can be summed, though their sum is in the
type. -/
theorem order_decides :
    upFirst.numbers.Perm downFirst.numbers ∧ InRange Int32 upFirst.numbers.sum ∧
      upFirst.outcome = .error (.sumOverflow "ncloc") ∧
      downFirst.outcome = .ok (some 2147483647) := by
  refine ⟨by decide +kernel, ⟨?_, ?_⟩, by decide +kernel, by decide +kernel⟩
  · exact (by decide +kernel : Int32.minValue.toInt ≤ upFirst.numbers.sum)
  · exact (by decide +kernel : upFirst.numbers.sum ≤ Int32.maxValue.toInt)

end GroupingWitnesses

end Metrology
