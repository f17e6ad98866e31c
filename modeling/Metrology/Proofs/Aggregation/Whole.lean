import Mathlib.Algebra.Ring.Int.Defs
import Mathlib.Data.List.Basic
import Metrology.Aggregation.Formula
import Metrology.Store

/-! # Sums of whole numbers

A counter that sums whole numbers holds the exact sum of the numbers it has been given, and it
refuses a number that would take this sum out of the type. It has no sum until it is given a number.
-/

namespace Metrology

/-- The whole number of a value, if it is one. -/
def Value.whole? : Value → Option Int
  | .int n => some n.toInt
  | .long n => some n.toInt
  | _ => none

/-- Types of numbers that are intervals of the integers. -/
class Whole (τ : Type) extends Summand τ where
  valueType : ValueType
  toInt : τ → Int
  lowest : Int
  highest : Int
  lowest_le : ∀ n, lowest ≤ toInt n
  le_highest : ∀ n, toInt n ≤ highest
  toInt_zero : toInt zero = 0
  toInt_of_add? : ∀ {a b sum}, add? a b = some sum → toInt sum = toInt a + toInt b
  /-- A sum is refused if it leaves the interval and for no other reason. -/
  add?_eq_none_iff : ∀ {a b},
    add? a b = none ↔ ¬ (lowest ≤ toInt a + toInt b ∧ toInt a + toInt b ≤ highest)
  type_toValue : ∀ n, (toValue n).type = valueType
  whole?_toValue : ∀ n, (toValue n).whole? = some (toInt n)
  /-- Values of other types hold no number of this one. -/
  ofMeasure_of_type : ∀ {measure : Measure}, measure.value.type = valueType →
    ∃ n, ofMeasure measure = .ok n ∧ measure.value = toValue n

instance : Whole Int32 where
  valueType := .int
  toInt := Int32.toInt
  lowest := Int32.minValue.toInt
  highest := Int32.maxValue.toInt
  lowest_le n := n.minValue_le_toInt
  le_highest n := n.toInt_le
  toInt_zero := rfl
  toInt_of_add? {a b sum} h := by
    replace h : sum32? a b = some sum := h
    simp only [sum32?] at h
    split at h
    · rename_i fits
      obtain rfl := Option.some.inj h
      rw [Int32.toInt_minValue, Int32.toInt_maxValue] at fits
      exact Int32.toInt_ofInt_of_le fits.1 (by omega)
    · contradiction
  add?_eq_none_iff {a b} := by
    change sum32? a b = none ↔ _
    simp [sum32?]
  type_toValue _ := rfl
  whole?_toValue _ := rfl
  ofMeasure_of_type {measure} h := by
    obtain ⟨metric, value⟩ := measure
    cases value with
    | int n => exact ⟨n, rfl, rfl⟩
    | _ => contradiction

instance : Whole Int64 where
  valueType := .long
  toInt := Int64.toInt
  lowest := Int64.minValue.toInt
  highest := Int64.maxValue.toInt
  lowest_le n := n.minValue_le_toInt
  le_highest n := n.toInt_le
  toInt_zero := rfl
  toInt_of_add? {a b sum} h := by
    replace h : sum64? a b = some sum := h
    simp only [sum64?] at h
    split at h
    · rename_i fits
      obtain rfl := Option.some.inj h
      rw [Int64.toInt_minValue, Int64.toInt_maxValue] at fits
      exact Int64.toInt_ofInt_of_le fits.1 (by omega)
    · contradiction
  add?_eq_none_iff {a b} := by
    change sum64? a b = none ↔ _
    simp [sum64?]
  type_toValue _ := rfl
  whole?_toValue _ := rfl
  ofMeasure_of_type {measure} h := by
    obtain ⟨metric, value⟩ := measure
    cases value with
    | long n => exact ⟨n, rfl, rfl⟩
    | _ => contradiction

/-! ## Exact sums -/

/-- The sum of the numbers, absent where there are none. -/
def exactSum? (numbers : List Int) : Option Int :=
  if numbers = [] then none else some numbers.sum

theorem exactSum?_eq_none_iff {numbers : List Int} : exactSum? numbers = none ↔ numbers = [] := by
  unfold exactSum?
  split <;> simp_all

/-- Summing parts first, and leaving out those without a number, comes to the same sum. -/
theorem exactSum?_filterMap {α : Type} (parts : List α) (numbers : α → List Int) :
    exactSum? (parts.filterMap fun part => exactSum? (numbers part)) =
      exactSum? (parts.flatMap numbers) := by
  have sum : (parts.filterMap fun part => exactSum? (numbers part)).sum =
      (parts.flatMap numbers).sum := by
    induction parts with
    | nil => rfl
    | cons part parts ih =>
      rw [List.flatMap_cons, List.sum_append, ← ih]
      by_cases empty : numbers part = []
      · have absent := exactSum?_eq_none_iff.mpr empty
        rw [List.filterMap_cons, absent, empty, List.sum_nil, Int.zero_add]
      · have present : exactSum? (numbers part) = some (numbers part).sum := if_neg empty
        rw [List.filterMap_cons, present, List.sum_cons]
  have empty : (parts.filterMap fun part => exactSum? (numbers part)) = [] ↔
      parts.flatMap numbers = [] := by
    rw [List.filterMap_eq_nil_iff, List.flatMap_eq_nil_iff]
    exact forall₂_congr fun _ _ => exactSum?_eq_none_iff
  by_cases none : parts.flatMap numbers = []
  · rw [exactSum?_eq_none_iff.mpr none, exactSum?_eq_none_iff.mpr (empty.mpr none)]
  · rw [exactSum?, exactSum?, if_neg none, if_neg (mt empty.mp none), sum]

theorem exactSum?_append_comm (numbers numbers' : List Int) :
    exactSum? (numbers ++ numbers') = exactSum? (numbers' ++ numbers) := by
  unfold exactSum?
  rw [List.sum_append, List.sum_append, Int.add_comm]
  simp only [List.append_eq_nil_iff, and_comm]

theorem exactSum?_append_congr {numbers numbers' : List Int}
    (same : exactSum? numbers = exactSum? numbers') (more : List Int) :
    exactSum? (numbers ++ more) = exactSum? (numbers' ++ more) := by
  unfold exactSum? at same ⊢
  by_cases empty : numbers = [] <;> by_cases empty' : numbers' = [] <;> simp_all

section Ranges

variable (τ : Type) [Whole τ]

/-- The number is one of the type. -/
def InRange (number : Int) : Prop :=
  Whole.lowest τ ≤ number ∧ number ≤ Whole.highest τ

/-- Some sum of `start` and the first of the numbers is not in the type. -/
def LeavesRange (start : Int) (numbers : List Int) : Prop :=
  ∃ part, part <+: numbers ∧ ¬ InRange τ (start + part.sum)

variable {τ}

theorem inRange_toInt (n : τ) : InRange τ (Whole.toInt n) :=
  ⟨Whole.lowest_le n, Whole.le_highest n⟩

theorem leavesRange_nil {start : Int} : LeavesRange τ start [] ↔ ¬ InRange τ start := by
  simp [LeavesRange]

theorem leavesRange_cons {start number : Int} {numbers : List Int} :
    LeavesRange τ start (number :: numbers) ↔
      ¬ InRange τ start ∨ LeavesRange τ (start + number) numbers := by
  constructor
  · rintro ⟨part, isPart, leaves⟩
    rcases List.prefix_cons_iff.mp isPart with rfl | ⟨rest, rfl, isRest⟩
    · left
      simpa using leaves
    · right
      refine ⟨rest, isRest, ?_⟩
      rwa [List.sum_cons, ← Int.add_assoc] at leaves
  · rintro (leaves | ⟨rest, isPart, leaves⟩)
    · exact ⟨[], List.nil_prefix, by simpa using leaves⟩
    · refine ⟨number :: rest, List.cons_prefix_cons.mpr ⟨rfl, isPart⟩, ?_⟩
      rwa [List.sum_cons, ← Int.add_assoc]

theorem leavesRange_toList_iff {start : Int} (inRange : InRange τ start) (number : Option Int) :
    LeavesRange τ start number.toList ↔ ∃ n, number = some n ∧ ¬ InRange τ (start + n) := by
  cases number with
  | none => simp [leavesRange_nil, inRange]
  | some n => simp [leavesRange_cons, leavesRange_nil, inRange]

theorem leavesRange_append {start : Int} {numbers numbers' : List Int} :
    LeavesRange τ start (numbers ++ numbers') ↔
      LeavesRange τ start numbers ∨ LeavesRange τ (start + numbers.sum) numbers' := by
  induction numbers generalizing start with
  | nil =>
    rw [List.nil_append, List.sum_nil, Int.add_zero, leavesRange_nil]
    constructor
    · exact Or.inr
    · rintro (leaves | leaves)
      · exact ⟨[], List.nil_prefix, by simpa using leaves⟩
      · exact leaves
  | cons number numbers ih =>
    rw [List.cons_append, leavesRange_cons, leavesRange_cons, ih, or_assoc, List.sum_cons,
      ← Int.add_assoc]

end Ranges

/-! ## Counters -/

namespace SumCounter

variable {τ : Type}

theorem add_apply [Summand τ] (value : τ) (counter : SumCounter τ) :
    add value counter =
      match Summand.add? (counter.total.getD Summand.zero) value with
      | some sum => (.ok (), { counter with total := some sum })
      | none => (.error (.sumOverflow counter.metric), counter) := by
  have run : add value counter =
      (match Summand.add? (counter.total.getD Summand.zero) value with
        | some sum => set { counter with total := some sum }
        | none => throw (.sumOverflow counter.metric) : Update (SumCounter τ) Unit) counter := rfl
  rw [run]
  cases Summand.add? (counter.total.getD Summand.zero) value <;> rfl

theorem after_add [Summand τ] (value : τ) (counter : SumCounter τ) :
    (add value).after counter =
      match Summand.add? (counter.total.getD Summand.zero) value with
      | some sum => .ok { counter with total := some sum }
      | none => .error (.sumOverflow counter.metric) := by
  rw [Update.after, add_apply]
  cases Summand.add? (counter.total.getD Summand.zero) value <;> rfl

/-- Gives a counter a number if there is one. -/
def offer [Summand τ] : Option τ → Update (SumCounter τ) Unit
  | some value => add value
  | none => pure ()

/-- Gives a counter the number of a measure, if there is one. -/
def offerMeasure [Summand τ] : Option Measure → Update (SumCounter τ) Unit
  | some measure =>
    if measure.hasValue then do
      let value ← Summand.ofMeasure (τ := τ) measure
      add value
    else pure ()
  | none => pure ()

variable [Whole τ]

/-- The counter holds the exact sum of the numbers. -/
structure Gathered (counter : SumCounter τ) (metric : String) (numbers : List Int) : Prop where
  sums : counter.metric = metric
  total : counter.total.map Whole.toInt = exactSum? numbers

variable {counter : SumCounter τ} {metric : String} {numbers : List Int}

theorem gathered_nil (metric : String) : (⟨metric, none⟩ : SumCounter τ).Gathered metric [] :=
  ⟨rfl, rfl⟩

theorem Gathered.toInt_getD (gathered : counter.Gathered metric numbers) :
    Whole.toInt (counter.total.getD Summand.zero) = numbers.sum := by
  have total := gathered.total
  by_cases empty : numbers = []
  · rw [exactSum?_eq_none_iff.mpr empty, Option.map_eq_none_iff] at total
    rw [total, empty]
    exact Whole.toInt_zero
  · rw [exactSum?, if_neg empty, Option.map_eq_some_iff] at total
    obtain ⟨sum, held, exact⟩ := total
    rw [held]
    exact exact

theorem Gathered.inRange (gathered : counter.Gathered metric numbers) :
    InRange τ numbers.sum :=
  gathered.toInt_getD ▸ inRange_toInt _

/-- A counter takes a number that keeps the sum in the type and refuses any other. -/
theorem Gathered.after_offer (gathered : counter.Gathered metric numbers) (number : Option τ) :
    (LeavesRange τ numbers.sum (number.map Whole.toInt).toList ∧
        (offer number).after counter = .error (.sumOverflow metric)) ∨
      ¬ LeavesRange τ numbers.sum (number.map Whole.toInt).toList ∧
        ∃ counter', (offer number).after counter = .ok counter' ∧
          counter'.Gathered metric (numbers ++ (number.map Whole.toInt).toList) := by
  have inRange := gathered.inRange
  have start := gathered.toInt_getD
  cases number with
  | none =>
    right
    refine ⟨fun leaves => leavesRange_nil.mp leaves inRange, counter, rfl, ?_⟩
    rw [Option.map_none, Option.toList_none, List.append_nil]
    exact gathered
  | some value =>
    rw [offer, after_add]
    simp only [Option.map_some, Option.toList_some, leavesRange_cons, leavesRange_nil]
    cases sum : Summand.add? (counter.total.getD Summand.zero) value with
    | none =>
      left
      have leaves := Whole.add?_eq_none_iff.mp sum
      rw [start] at leaves
      rw [gathered.sums]
      exact ⟨.inr leaves, rfl⟩
    | some total =>
      right
      have exact := Whole.toInt_of_add? sum
      rw [start] at exact
      have fits : InRange τ (numbers.sum + Whole.toInt value) := exact ▸ inRange_toInt total
      refine ⟨by simp [inRange, fits], _, rfl, gathered.sums, ?_⟩
      rw [exactSum?, if_neg (by simp), List.sum_append, List.sum_singleton]
      exact congrArg some exact

/-- A leaf gives its counter the number it has for the metric. -/
theorem after_aggregateLeaf {leaf : Leaf} {held : Option Measure}
    (reads : leaf.measure counter.metric = .ok held)
    (fits : ∀ measure, held = some measure → measure.value.Fits (Whole.valueType τ)) :
    ∃ number : Option τ, number.map Whole.toInt = held.bind (fun measure => measure.value.whole?) ∧
      (Counter.aggregateLeaf leaf).after counter = (offer number).after counter := by
  have run : (Counter.aggregateLeaf leaf).after counter =
      Update.after (do offerMeasure (← leaf.measure counter.metric)) counter := rfl
  rw [run, reads]
  cases held with
  | none => exact ⟨none, rfl, rfl⟩
  | some measure =>
    obtain ⟨key, value⟩ := measure
    rcases fits _ rfl with blank | typed
    · cases value with
      | noValue => exact ⟨none, rfl, rfl⟩
      | _ => contradiction
    · obtain ⟨number, given, same⟩ := Whole.ofMeasure_of_type typed
      replace same : value = Summand.toValue number := same
      have holds : value.whole? = some (Whole.toInt number) := same ▸ Whole.whole?_toValue number
      have present : (Measure.mk key value).hasValue = true := by
        cases value with
        | noValue => contradiction
        | _ => rfl
      refine ⟨some number, holds.symm, ?_⟩
      change (offerMeasure (some ⟨key, value⟩)).after counter = _
      rw [offerMeasure, if_pos present, given]
      rfl

end SumCounter

end Metrology
