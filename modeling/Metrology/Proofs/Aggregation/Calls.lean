import Metrology.Proofs.Aggregation.Doubles

/-! # Calls of counters

A counter can be called any number of times, with counters of children and with leaves, and some of
the calls may fail. A counter that sums whole numbers comes through with the exact sum of what the
successful calls had for it, and a call that fails leaves it as it was. This is not so for the
counter of an average: a leaf whose divisor can not be read has added to the averaged sum before the
call fails.
-/

namespace Metrology

variable {κ : Type} [Counter κ] {catalog : Catalog}

/-- One call of a counter. -/
inductive CounterCall (κ : Type) (catalog : Catalog) where
  | aggregate (child : κ)
  | leaf (store : Store catalog) (c : Component)

namespace CounterCall

/-- How the call ends and what it makes of the counter, if it fails as well. -/
def run (call : CounterCall κ catalog) (counter : κ) : Except Fault Unit × κ :=
  match call with
  | .aggregate child => Counter.aggregate child counter
  | .leaf store c => Counter.aggregateLeaf (Formula.leafOf store c) counter

/-- The counter after calls, whichever of them have failed. -/
def after (counter : κ) (calls : List (CounterCall κ catalog)) : κ :=
  calls.foldl (fun counter call => (call.run counter).2) counter

end CounterCall

/-! ## Sums of whole numbers -/

/-- Types of whole numbers that are read from measures of their own type only. -/
class Typed (τ : Type) extends Whole τ where
  ofMeasure_of_ne : ∀ {measure : Measure}, measure.value.type ≠ valueType →
    ofMeasure measure = .error (.wrongValueAccess valueType measure.value.type)

instance : Typed Int32 where
  ofMeasure_of_ne {measure} apart := by
    obtain ⟨metric, value⟩ := measure
    cases value with
    | int n => exact absurd rfl apart
    | _ => rfl

instance : Typed Int64 where
  ofMeasure_of_ne {measure} apart := by
    obtain ⟨metric, value⟩ := measure
    cases value with
    | long n => exact absurd rfl apart
    | _ => rfl

variable {τ : Type} [Typed τ]

/-- What a call has for a counter that sums the metric: a number, nothing, or a fault because the
measure can not be read as a number of the type. -/
def CounterCall.offered (metric : String) :
    CounterCall (SumCounter τ) catalog → Except Fault (Option Int)
  | .aggregate child => .ok (child.total.map Whole.toInt)
  | .leaf store c =>
    match catalog.find? metric, store.find? c.key metric with
    | none, _ => .error (.unknownMetric metric)
    | some _, none => .ok none
    | some _, some measure =>
      if measure.value.type = .noValue then .ok none
      else if measure.value.type = Whole.valueType τ then .ok measure.value.whole?
      else .error (.wrongValueAccess (Whole.valueType τ) measure.value.type)

theorem CounterCall.offered_ne_overflow (call : CounterCall (SumCounter τ) catalog)
    (metric named : String) : call.offered metric ≠ .error (.sumOverflow named) := by
  cases call with
  | aggregate child => simp [offered]
  | leaf store c =>
    rw [offered]
    split
    · simp
    · simp
    · split
      · simp
      · split <;> simp

namespace SumCounter

variable {counter : SumCounter τ} {metric : String} {numbers : List Int}

/-- What the successful ones of some calls had for the counter. -/
def contributions (counter : SumCounter τ) : List (CounterCall (SumCounter τ) catalog) → List Int
  | [] => []
  | call :: calls =>
    let (result, counter') := call.run counter
    let own := match result with
      | .ok () => (call.offered counter.metric).toOption.join.toList
      | .error _ => []
    own ++ contributions counter' calls

theorem offer_apply_of_ok {number : Option τ} {counter' : SumCounter τ}
    (taken : (offer number).after counter = .ok counter') :
    offer number counter = (.ok (), counter') := by
  cases number with
  | none =>
    obtain rfl := Except.ok.inj taken
    rfl
  | some value =>
    rw [offer, after_add] at taken
    rw [offer, add_apply]
    cases sum : Summand.add? (counter.total.getD Summand.zero) value with
    | none =>
      rw [sum] at taken
      contradiction
    | some total =>
      rw [sum] at taken
      obtain rfl := Except.ok.inj taken
      rfl

/-- A number that is refused leaves the counter as it was. -/
theorem offer_apply_of_error {number : Option τ} {fault : Fault}
    (refused : (offer number).after counter = .error fault) :
    offer number counter = (.error fault, counter) := by
  cases number with
  | none => contradiction
  | some value =>
    rw [offer, after_add] at refused
    rw [offer, add_apply]
    cases sum : Summand.add? (counter.total.getD Summand.zero) value with
    | none =>
      rw [sum] at refused
      obtain rfl := Except.error.inj refused
      rfl
    | some total =>
      rw [sum] at refused
      contradiction

/-- A call offers the counter a number if it has one, and fails on its own otherwise. -/
theorem run_eq_error_or_offer (call : CounterCall (SumCounter τ) catalog)
    (counter : SumCounter τ) :
    (∃ fault, call.offered counter.metric = .error fault ∧
        call.run counter = (.error fault, counter)) ∨
      ∃ number : Option τ, call.offered counter.metric = .ok (number.map Whole.toInt) ∧
        call.run counter = offer number counter := by
  cases call with
  | aggregate child =>
    refine .inr ⟨child.total, rfl, ?_⟩
    cases held : child.total <;> simp [CounterCall.run, Counter.aggregate, offer, held]
  | leaf store c =>
    have run : (CounterCall.leaf store c).run counter =
        (do offerMeasure (← store.get c.key counter.metric) : Update (SumCounter τ) Unit) counter :=
      rfl
    rw [run, CounterCall.offered, Store.get]
    cases known : catalog.find? counter.metric with
    | none => exact .inl ⟨_, rfl, rfl⟩
    | some metric =>
      cases held : store.find? c.key counter.metric with
      | none => exact .inr ⟨none, rfl, rfl⟩
      | some measure =>
        change _ ∨ ∃ number, _ ∧ offerMeasure (some measure) counter = offer number counter
        by_cases blank : measure.value.type = .noValue
        · refine .inr ⟨none, if_pos blank, ?_⟩
          rw [offerMeasure, if_neg (by simp [Measure.hasValue, blank])]
          rfl
        · have present : measure.hasValue = true := by simp [Measure.hasValue, blank]
          by_cases typed : measure.value.type = Whole.valueType τ
          · obtain ⟨number, given, same⟩ := Whole.ofMeasure_of_type typed
            have whole : measure.value.whole? = some (Whole.toInt number) :=
              same ▸ Whole.whole?_toValue number
            refine .inr ⟨some number, ?_, ?_⟩
            · simp only [if_neg blank, if_pos typed, whole, Option.map_some]
            · rw [offerMeasure, if_pos present, given]
              rfl
          · have refused := Typed.ofMeasure_of_ne typed
            refine .inl ⟨.wrongValueAccess (Whole.valueType τ) measure.value.type, ?_, ?_⟩
            · simp [blank, typed]
            · change offerMeasure (some measure) counter = _
              rw [offerMeasure, if_pos present, refused]
              rfl

/-- What a call can do to a counter that has gathered some numbers. -/
theorem Gathered.run (gathered : counter.Gathered metric numbers)
    (call : CounterCall (SumCounter τ) catalog) :
    (∃ fault, call.offered metric = .error fault ∧ call.run counter = (.error fault, counter)) ∨
      (∃ n, call.offered metric = .ok (some n) ∧ ¬ InRange τ (numbers.sum + n) ∧
        call.run counter = (.error (.sumOverflow metric), counter)) ∨
      ∃ number counter', call.offered metric = .ok number ∧
        (∀ n, number = some n → InRange τ (numbers.sum + n)) ∧
        call.run counter = (.ok (), counter') ∧
        counter'.Gathered metric (numbers ++ number.toList) := by
  have run := run_eq_error_or_offer call counter
  rw [gathered.sums] at run
  rcases run with failed | ⟨number, offered, run⟩
  · exact .inl failed
  rw [run]
  have leaves_iff := leavesRange_toList_iff gathered.inRange (number.map Whole.toInt)
  rcases gathered.after_offer number with ⟨leaves, refused⟩ | ⟨stays, counter', taken, more⟩
  · rw [offer_apply_of_error refused]
    obtain ⟨n, given, leaves⟩ := leaves_iff.mp leaves
    exact .inr (.inl ⟨n, offered.trans (congrArg _ given), leaves, rfl⟩)
  · rw [offer_apply_of_ok taken]
    refine .inr (.inr ⟨_, counter', offered, fun n given => ?_, rfl, more⟩)
    by_contra leaves
    exact stays (leaves_iff.mpr ⟨n, given, leaves⟩)

/-- After calls a counter holds the sum of what the successful ones had for it. -/
theorem Gathered.after (gathered : counter.Gathered metric numbers)
    (calls : List (CounterCall (SumCounter τ) catalog)) :
    (CounterCall.after counter calls).Gathered metric (numbers ++ contributions counter calls) := by
  induction calls generalizing counter numbers with
  | nil =>
    rw [contributions, List.append_nil]
    exact gathered
  | cons call calls ih =>
    rw [CounterCall.after, List.foldl_cons, contributions, gathered.sums]
    rcases gathered.run call with ⟨fault, -, run⟩ | ⟨n, -, -, run⟩ |
      ⟨number, counter', offered, -, run, more⟩
    · rw [run]
      exact ih gathered
    · rw [run]
      exact ih gathered
    · rw [run, offered, ← List.append_assoc]
      exact ih more

/-- A counter holds the exact sum of what the successful calls had for it. A call that fails leaves
it alone, and fails because its measure can not be read or because the sum would leave the type. -/
theorem calls_sum_exactly (metric : String) (calls : List (CounterCall (SumCounter τ) catalog))
    (call : CounterCall (SumCounter τ) catalog) :
    let start : SumCounter τ := ⟨metric, none⟩
    let counter := CounterCall.after start calls
    let numbers := contributions start calls
    let result := (call.run counter).1
    let counter' := (call.run counter).2
    counter.metric = metric ∧ (counter.total = none ↔ numbers = []) ∧
      (∀ sum, counter.total = some sum → Whole.toInt sum = numbers.sum) ∧
      (∀ fault, result = .error fault → counter' = counter) ∧
      (∀ named, result = .error (.sumOverflow named) ↔ named = metric ∧
        ∃ n, call.offered metric = .ok (some n) ∧ ¬ InRange τ (numbers.sum + n)) ∧
      ∀ fault, (∀ named, fault ≠ .sumOverflow named) →
        (result = .error fault ↔ call.offered metric = .error fault) := by
  intro start counter numbers
  have gathered : counter.Gathered metric numbers := (gathered_nil metric).after calls
  have absent : counter.total = none ↔ numbers = [] := by
    rw [← exactSum?_eq_none_iff, ← gathered.total, Option.map_eq_none_iff]
  have exact : ∀ sum, counter.total = some sum → Whole.toInt sum = numbers.sum := by
    intro sum held
    have total := gathered.toInt_getD
    rwa [held] at total
  rcases gathered.run call with ⟨fault, offered, run⟩ | ⟨n, offered, leaves, run⟩ |
    ⟨number, counter', offered, fits, run, -⟩
  · rw [run]
    refine ⟨gathered.sums, absent, exact, fun _ _ => rfl, fun named => ?_, fun fault' _ => ?_⟩
    · rw [offered]
      refine iff_of_false (fun overflow => ?_) (by simp)
      cases overflow
      exact call.offered_ne_overflow metric named offered
    · simp [offered]
  · rw [run]
    refine ⟨gathered.sums, absent, exact, fun _ _ => rfl, fun named => ?_, fun fault' other => ?_⟩
    · rw [offered]
      constructor
      · rintro ⟨⟩
        exact ⟨rfl, n, rfl, leaves⟩
      · rintro ⟨rfl, -⟩
        rfl
    · rw [offered]
      refine iff_of_false (fun overflow => ?_) (by simp)
      cases overflow
      exact other metric rfl
  · rw [run]
    refine ⟨gathered.sums, absent, exact, by simp, fun named => ?_, fun fault' _ => ?_⟩
    · refine iff_of_false (by simp) ?_
      rintro ⟨-, n, offered', leaves⟩
      rw [offered] at offered'
      exact leaves (fits n (Except.ok.inj offered'))
    · simp [offered]

end SumCounter

/-! ## Averages -/

namespace AverageCounter

theorem number?_eq_none_of_fault {store : Store catalog} {component metric : String} {fault : Fault}
    (faulty : store.numberFault? component metric = some fault) :
    store.number? component metric = none := by
  rw [Store.numberFault?] at faulty
  rw [Store.number?]
  cases held : store.find? component metric with
  | none => rfl
  | some measure =>
    obtain ⟨known, isKnown, -⟩ := store.admits_of_find? held
    rw [isKnown, held] at faulty
    by_cases readable : measure.value.type = .noValue ∨ measure.value.number?.isSome
    · simp [readable] at faulty
    · simpa using (not_or.mp readable).2

/-- A leaf first adds to the averaged sum and then to the divisor, each unless its measure can not
be read. -/
theorem run_leaf (store : Store catalog) (c : Component) (counter : AverageCounter) :
    (CounterCall.leaf store c).run counter =
      match store.numberFault? c.key counter.mainMetric with
      | some fault => (.error fault, counter)
      | none =>
        let main := addNumber counter.main (store.number? c.key counter.mainMetric)
        match store.numberFault? c.key counter.perMetric with
        | some fault => (.error fault, { counter with main := main })
        | none =>
          let per := addNumber counter.per (store.number? c.key counter.perMetric)
          (.ok (), { counter with main := main, per := per }) := by
  have run : (CounterCall.leaf store c).run counter = (do
      let main ← numberOf (Formula.leafOf store c) counter.mainMetric
      modify fun counter : AverageCounter => { counter with main := addNumber counter.main main }
      let per ← numberOf (Formula.leafOf store c) counter.perMetric
      modify fun counter => { counter with per := addNumber counter.per per } :
        Update AverageCounter Unit) counter := rfl
  rw [run, numberOf_leafOf, numberOf_leafOf]
  cases store.numberFault? c.key counter.mainMetric with
  | some fault => rfl
  | none => cases store.numberFault? c.key counter.perMetric <;> rfl

/-- A leaf that can not be read leaves the divisor alone, but a number that it has for the averaged
metric stays added. So the counter is left as it was if there is no such number, or if adding it
changes nothing, and in no other case. -/
theorem failed_leaf_keeps_main (counter : AverageCounter) (store : Store catalog) (c : Component) :
    let result := ((CounterCall.leaf store c).run counter).1
    let counter' := ((CounterCall.leaf store c).run counter).2
    let number? := store.number? c.key counter.mainMetric
    (∀ fault, result = .error fault ↔ (store.numberFault? c.key counter.mainMetric).or
        (store.numberFault? c.key counter.perMetric) = some fault) ∧
      ∀ fault, result = .error fault →
        (number? = none → counter' = counter) ∧
        (∀ x, number? = some x →
          counter' = { counter with main := some (counter.main.getD 0.0 + x) }) ∧
        (counter' = counter ↔
          ∀ x, number? = some x → counter.main = some (counter.main.getD 0.0 + x)) := by
  rw [run_leaf]
  cases main : store.numberFault? c.key counter.mainMetric with
  | some fault =>
    have absent := number?_eq_none_of_fault main
    refine ⟨by simp, fun _ _ => ⟨fun _ => rfl, ?_, ?_⟩⟩ <;> simp [absent]
  | none =>
    cases per : store.numberFault? c.key counter.perMetric with
    | some fault =>
      refine ⟨by simp, fun _ _ => ?_⟩
      cases store.number? c.key counter.mainMetric with
      | none => simp [addNumber]
      | some x =>
        refine ⟨by simp, fun y same => ?_, fun unchanged y same => ?_, fun absorbed => ?_⟩
        · cases same
          rfl
        · cases same
          exact (congrArg AverageCounter.main unchanged).symm
        · obtain ⟨mainMetric, perMetric, total, divisor⟩ := counter
          exact congrArg (AverageCounter.mk mainMetric perMetric · divisor) (absorbed x rfl).symm
    | none => simp

end AverageCounter

namespace CallWitnesses

def metrics : Catalog :=
  ⟨[⟨"ncloc", .int, "Lines of code"⟩, ⟨"effort", .float, "Effort"⟩, ⟨"notes", .string, "Notes"⟩],
    by decide⟩

def file (key : String) (reference : Int32) : Component :=
  .node ⟨key, none, key, .file ⟨reference, none, none⟩ {}⟩ []

/-- Two files whose lines have no sum that fits, and one without lines; the first file has an effort
and notes as well. -/
def measured : Store metrics :=
  (((((∅ : Store metrics).put "F" "ncloc" ⟨"ncloc", .int 2147483647⟩ ⟨_, rfl, rfl, .inr rfl⟩).put
    "G" "ncloc" ⟨"ncloc", .int 1⟩ ⟨_, rfl, rfl, .inr rfl⟩).put
      "H" "ncloc" ⟨"ncloc", .noValue⟩ ⟨_, rfl, rfl, .inl rfl⟩).put
        "F" "effort" ⟨"effort", .double 6⟩ ⟨_, rfl, rfl, .inr rfl⟩).put
          "F" "notes" ⟨"notes", .string "done"⟩ ⟨_, rfl, rfl, .inr rfl⟩

/-- The second of these calls fails. -/
def calls : List (CounterCall (SumCounter Int32) metrics) :=
  [.leaf measured (file "F" 1), .leaf measured (file "G" 2), .leaf measured (file "H" 3),
    .aggregate ⟨"remarks", some (-1)⟩]

def lines : SumCounter Int32 := CounterCall.after ⟨"ncloc", none⟩ calls

/-- Two lines more than the counter can take. -/
def more : CounterCall (SumCounter Int32) metrics := .aggregate ⟨"ncloc", some 2⟩

/-- The counter comes to the lines of the first file less one, though the second call has failed,
and refuses a sum that leaves its type. -/
theorem calls_sum_exactly_lines :
    SumCounter.contributions ⟨"ncloc", none⟩ calls = [2147483647, -1] ∧
      lines.total = some 2147483646 ∧ more.offered "ncloc" = .ok (some 2) ∧
      ¬ InRange Int32 (2147483646 + 2) ∧ (more.run lines).1 = .error (.sumOverflow "ncloc") ∧
      (more.run lines).2 = lines := by
  have numbers : SumCounter.contributions ⟨"ncloc", none⟩ calls = [2147483647, -1] := by
    decide +kernel
  have total : lines.total = some 2147483646 := by decide +kernel
  have leaves : ¬ InRange Int32 (2147483646 + 2) := fun inRange => absurd inRange.2 (by decide)
  obtain ⟨-, -, -, unchanged, overflows, -⟩ := SumCounter.calls_sum_exactly "ncloc" calls more
  rw [numbers] at overflows
  have failed := (overflows "ncloc").mpr ⟨rfl, 2, rfl, leaves⟩
  exact ⟨numbers, total, rfl, leaves, failed, unchanged _ failed⟩

def fresh : AverageCounter := ⟨"effort", "notes", none, none⟩

/-- The notes by which the effort is divided are no number. -/
def failed : Except Fault Unit × AverageCounter :=
  (CounterCall.leaf measured (file "F" 1)).run fresh

/-- The effort was added before the notes were looked at. -/
theorem failed_leaf_keeps_main_effort :
    failed.1 = .error (.wrongValueAccess .double .string) ∧
      measured.number? "F" "effort" = some 6 ∧ failed.2 = ⟨"effort", "notes", some 6, none⟩ := by
  obtain ⟨fails, keeps⟩ := AverageCounter.failed_leaf_keeps_main fresh measured (file "F" 1)
  have faulty : failed.1 = .error (.wrongValueAccess .double .string) :=
    (fails _).mpr (by decide +kernel)
  have number : measured.number? "F" "effort" = some 6 := by decide +kernel
  have six : (0.0 + 6 : Float) = 6 := by decide +kernel
  have added := (keeps _ faulty).2.1 6 number
  refine ⟨faulty, number, added.trans ?_⟩
  exact congrArg (AverageCounter.mk "effort" "notes" · none) (congrArg some six)

/-- An effort of four for two. -/
def child : CounterCall AverageCounter metrics := .aggregate ⟨"effort", "notes", some 4, some 2⟩

/-- A leaf that failed can have changed the counter, and with it an average that is taken later. -/
theorem failed_leaf_changes_average :
    (¬ ∀ (counter : AverageCounter) (store : Store metrics) (c : Component) (fault : Fault),
        ((CounterCall.leaf store c).run counter).1 = .error fault →
          ((CounterCall.leaf store c).run counter).2 = counter) ∧
      (CounterCall.after fresh [child]).average = some 2 ∧
      (CounterCall.after failed.2 [child]).average = some 5 := by
  refine ⟨fun unchanged => ?_, by decide +kernel, by decide +kernel⟩
  have same := unchanged fresh measured (file "F" 1) (.wrongValueAccess .double .string)
    (by decide +kernel)
  exact absurd (congrArg AverageCounter.main same) (by decide +kernel)

end CallWitnesses

end Metrology
