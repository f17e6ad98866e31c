import Metrology.Proofs.Growth
import Metrology.Proofs.Runs

/-! # Histories of a store

A store that starts empty and is written to, whatever is written and whichever writes fail, is a
finite map with typed values: each write succeeds or fails as the writes before it say, a slot holds
what was last written to it, and the records list every slot that holds a measure once, in order.
-/

namespace Metrology

open Metrology.Action

variable {catalog : Catalog}

/-- The two ways to write to a store. -/
inductive WriteMode where
  /-- Into an empty slot. -/
  | add
  /-- In the place of a measure. -/
  | update
deriving DecidableEq

/-- A measure that is to be stored for a component under the key of a metric. It may be one of
another metric, or of none that the catalog knows. -/
structure Write where
  mode : WriteMode
  component : Component
  metric : String
  measure : Measure

namespace Write

/-- Writes to the store; a write that fails leaves it as it was. -/
def perform (write : Write) : Action (Store catalog) Unit :=
  Action.change fun store =>
    match write.mode with
    | .add => store.add write.component.key write.metric write.measure
    | .update => store.update write.component.key write.metric write.measure

/-- The write is one to this slot. -/
def Into (write : Write) (component metric : String) : Prop :=
  write.component.key = component ∧ write.metric = metric

instance (write : Write) (component metric : String) : Decidable (write.Into component metric) :=
  inferInstanceAs (Decidable (_ ∧ _))

/-- What a slot has to hold for a write of this mode. -/
def Meets (write : Write) (held : Option Measure) : Prop :=
  match write.mode with
  | .add => held = none
  | .update => held ≠ none

end Write

namespace Store

/-! ## One write -/

/-- A measure can be replaced if the catalog admits the new one and its slot holds one. -/
theorem update_eq_ok_iff {store after : Store catalog} {component metric : String}
    {measure : Measure} :
    store.update component metric measure = .ok after ↔
      ∃ admits : catalog.Admits metric measure,
        store.find? component metric ≠ none ∧
          after = store.put component metric measure admits := by
  unfold update
  split
  · rename_i fault objects
    constructor
    · intro h
      contradiction
    · rintro ⟨admits, -⟩
      rw [Catalog.objection?_eq_none_iff.mpr admits] at objects
      contradiction
  · rename_i noObjection
    have admits := Catalog.objection?_eq_none_iff.mp noObjection
    cases held : store.find? component metric with
    | none => simp
    | some measure =>
      simp only [Except.ok.injEq, ne_eq, reduceCtorEq, not_false_eq_true, true_and]
      constructor
      · intro stored
        exact ⟨admits, stored.symm⟩
      · rintro ⟨_, stored⟩
        exact stored.symm

/-- A write succeeds if the catalog admits the measure and the slot holds what the mode asks for;
then the slot holds the measure. -/
theorem perform_of_admits {store : Store catalog} {write : Write}
    (admits : catalog.Admits write.metric write.measure)
    (meets : write.Meets (store.find? write.component.key write.metric)) :
    write.perform store =
      ⟨.ok (), store.put write.component.key write.metric write.measure admits, []⟩ := by
  obtain ⟨mode, component, metric, measure⟩ := write
  cases mode with
  | add =>
    have stored := add_eq_ok_iff.mpr ⟨admits, meets, rfl⟩
    simp only [Write.perform, Action.change, stored]
  | update =>
    have stored := update_eq_ok_iff.mpr ⟨admits, meets, rfl⟩
    simp only [Write.perform, Action.change, stored]

theorem result_perform_iff {store : Store catalog} {write : Write} :
    (write.perform store).result = .ok () ↔
      catalog.Admits write.metric write.measure ∧
        write.Meets (store.find? write.component.key write.metric) := by
  constructor
  · obtain ⟨mode, component, metric, measure⟩ := write
    intro h
    cases mode with
    | add =>
      cases stored : store.add component.key metric measure with
      | ok after =>
        obtain ⟨admits, free, -⟩ := add_eq_ok_iff.mp stored
        exact ⟨admits, free⟩
      | error fault => simp [Write.perform, Action.change, stored] at h
    | update =>
      cases stored : store.update component.key metric measure with
      | ok after =>
        obtain ⟨admits, held, -⟩ := update_eq_ok_iff.mp stored
        exact ⟨admits, held⟩
      | error fault => simp [Write.perform, Action.change, stored] at h
  · rintro ⟨admits, meets⟩
    rw [perform_of_admits admits meets]

theorem state_perform_of_error {store : Store catalog} {write : Write}
    (failed : (write.perform store).result ≠ .ok ()) : (write.perform store).state = store := by
  unfold Write.perform Action.change at failed ⊢
  split at failed
  · contradiction
  · rfl

theorem find?_perform_of_ok {store : Store catalog} {write : Write}
    (ok : (write.perform store).result = .ok ()) (component metric : String) :
    (write.perform store).state.find? component metric =
      if write.Into component metric then some write.measure
      else store.find? component metric := by
  obtain ⟨admits, meets⟩ := result_perform_iff.mp ok
  rw [perform_of_admits admits meets, find?_put]
  simp only [Write.Into, eq_comm]

/-! ## Histories -/

/-- The store after all of the writes, one after the other. -/
def after (store : Store catalog) (history : List Write) : Store catalog :=
  history.foldl (fun store write => (write.perform store).state) store

/-- Those of the writes that succeed, one coming after the other. -/
def accepted (store : Store catalog) : List Write → List Write
  | [] => []
  | write :: history =>
    match (write.perform store).result with
    | .ok () => write :: accepted (write.perform store).state history
    | .error _ => accepted (write.perform store).state history

/-- The measure that the last of the writes to a slot has. -/
def lastWritten (history : List Write) (component metric : String) : Option Measure :=
  (history.reverse.find? fun write => write.Into component metric).map Write.measure

theorem lastWritten_cons (write : Write) (history : List Write) (component metric : String) :
    lastWritten (write :: history) component metric =
      (lastWritten history component metric).or
        (if write.Into component metric then some write.measure else none) := by
  rw [lastWritten, List.reverse_cons, List.find?_append, Option.map_or, lastWritten]
  by_cases into : write.Into component metric <;> simp [into]

/-- A slot holds what was last written to it with success, or else what it held at the start. -/
theorem find?_after (store : Store catalog) (history : List Write) (component metric : String) :
    (store.after history).find? component metric =
      (lastWritten (store.accepted history) component metric).or
        (store.find? component metric) := by
  induction history generalizing store with
  | nil => rfl
  | cons write history ih =>
    change ((write.perform store).state.after history).find? component metric = _
    rw [ih, accepted]
    cases result : (write.perform store).result with
    | ok done =>
      rw [find?_perform_of_ok result, lastWritten_cons, Option.or_assoc]
      by_cases into : write.Into component metric <;> simp [into]
    | error fault =>
      have failed : (write.perform store).result ≠ .ok () := by simp [result]
      rw [state_perform_of_error failed]

end Store

/-! ## Records -/

/-- The order of records: by component, and for one component by metric. -/
def Record.Before (first second : Record) : Prop :=
  first.component < second.component ∨
    first.component = second.component ∧ first.metric < second.metric

theorem Slot.order_eq_lt_iff {first second : Slot} :
    Slot.order first second = .lt ↔ first.component < second.component ∨
      first.component = second.component ∧ first.metric < second.metric := by
  have codePoints : ∀ {a b : String}, compare a b = .lt ↔ a < b := compareOfLessAndEq_eq_lt
  simp only [order, compareLex, compareOn, Ordering.then_eq_lt, codePoints,
    Std.LawfulEqOrd.compare_eq_iff_eq]

namespace Store

theorem mem_toList_iff {store : Store catalog} {slot : Slot} {measure : Measure} :
    (slot, measure) ∈ store.toList ↔ store.find? slot.component slot.metric = some measure :=
  Std.ExtTreeMap.mem_toList_iff_getElem?_eq_some

theorem mem_records_iff {store : Store catalog} {record : Record} :
    record ∈ store.records ↔
      ∃ measure, store.find? record.component record.metric = some measure ∧
        measure.value = record.value := by
  rw [records, List.mem_map]
  constructor
  · rintro ⟨⟨slot, measure⟩, mem, rfl⟩
    exact ⟨measure, mem_toList_iff.mp mem, rfl⟩
  · rintro ⟨measure, held, same⟩
    refine ⟨(⟨record.component, record.metric⟩, measure), mem_toList_iff.mpr held, ?_⟩
    exact congrArg (Record.mk record.component record.metric) same

theorem records_pairwise_before (store : Store catalog) : store.records.Pairwise Record.Before := by
  rw [records, List.pairwise_map]
  exact Std.ExtTreeMap.ordered_keys_toList.imp fun ordered => Slot.order_eq_lt_iff.mp ordered

theorem length_records (store : Store catalog) : store.records.length = store.size := by
  rw [records, List.length_map]
  exact Std.ExtTreeMap.length_toList

/-- What is listed for one component are its records. -/
theorem ofComponent_eq_filter_records (store : Store catalog) (component : String) :
    store.ofComponent component =
      (store.records.filter fun record => record.component = component).map
        fun record => (record.metric, ⟨record.metric, record.value⟩) := by
  have own : ∀ entry ∈ store.toList, entry.2.metric = entry.1.metric := by
    intro entry mem
    obtain ⟨_, _, named, _⟩ := admits_of_find? (mem_toList_iff.mp mem)
    exact named
  rw [ofComponent, records]
  generalize store.toList = entries at own
  induction entries with
  | nil => rfl
  | cons entry entries ih =>
    obtain ⟨⟨component', metric⟩, measure⟩ := entry
    obtain rfl : measure.metric = metric := own _ List.mem_cons_self
    rw [List.map_cons, List.filterMap_cons, List.filter_cons,
      ih fun entry mem => own entry (List.mem_cons_of_mem _ mem)]
    by_cases here : component' = component <;> simp [here]

/-! ## A typed finite map -/

/-- A store that is written to from the start is a typed finite map of what was last written. The
next write succeeds if the catalog admits the measure and, for an addition, nothing was written to
the slot or, for an update, something was; otherwise it leaves the store as it was. A slot reads as
the measure last written to it. The records list each slot that holds a measure once, in order, and
give the size of the store and the measures of every component. -/
theorem after_is_typed_map (catalog : Catalog) (history : List Write) :
    let store := (∅ : Store catalog).after history
    let last := lastWritten ((∅ : Store catalog).accepted history)
    (∀ write : Write,
        ((write.perform store).result = .ok () ↔
            catalog.Admits write.metric write.measure ∧
              write.Meets (last write.component.key write.metric)) ∧
          ((write.perform store).result ≠ .ok () → (write.perform store).state = store)) ∧
      (∀ component metric, store.get component metric =
        if catalog.contains metric then .ok (last component metric)
        else .error (.unknownMetric metric)) ∧
      (∀ record, record ∈ store.records ↔
        ∃ measure, last record.component record.metric = some measure ∧
          measure.value = record.value) ∧
      store.records.Pairwise Record.Before ∧ store.size = store.records.length ∧
      (∀ component, store.ofComponent component =
        (store.records.filter fun record => record.component = component).map
          fun record => (record.metric, ⟨record.metric, record.value⟩)) ∧
      ∀ component metric measure, last component metric = some measure →
        measure.metric = metric ∧ ∃ declared, catalog.find? metric = some declared ∧
          measure.value.Fits declared.valueType := by
  intro store last
  have holds : ∀ component metric, store.find? component metric = last component metric := by
    intro component metric
    have nothing : (∅ : Store catalog).find? component metric = none :=
      Std.ExtTreeMap.getElem?_empty
    rw [find?_after, nothing, Option.or_none]
  refine ⟨fun write => ⟨?_, state_perform_of_error⟩, ?_, ?_, store.records_pairwise_before,
    store.length_records.symm, store.ofComponent_eq_filter_records, ?_⟩
  · rw [result_perform_iff, holds]
  · intro component metric
    cases known : catalog.find? metric with
    | none => simp [Store.get, Catalog.contains, known]
    | some declared => simp [get_of_find? known, Catalog.contains, known, holds]
  · intro record
    rw [mem_records_iff, holds]
  · intro component metric measure written
    rw [← holds] at written
    obtain ⟨declared, known, named, fits⟩ := admits_of_find? written
    exact ⟨named, declared, known, fits⟩

end Store

namespace HistoryWitnesses

def metrics : Catalog := ⟨[⟨"ncloc", .int, "Lines"⟩], by decide⟩

def file : Component := .node ⟨"F", none, "F", .file ⟨1, none, none⟩ {}⟩ []

/-- A write of the lines of the file. -/
def lines (mode : WriteMode) (count : Int32) : Write :=
  ⟨mode, file, "ncloc", ⟨"ncloc", .int count⟩⟩

/-- The second addition fails, as does the update with a measure of another metric. -/
def history : List Write :=
  [lines .add 2, lines .add 3, lines .update 5, ⟨.update, file, "ncloc", ⟨"files", .int 7⟩⟩]

/-- Whether a measure is that of five lines. -/
def isFive : Option Measure → Bool
  | some ⟨"ncloc", .int n⟩ => n == 5
  | _ => false

theorem last_written :
    Store.lastWritten ((∅ : Store metrics).accepted history) "F" "ncloc" =
      some ⟨"ncloc", .int 5⟩ := by
  have found : isFive (Store.lastWritten ((∅ : Store metrics).accepted history) "F" "ncloc") =
      true := by decide +kernel
  unfold isFive at found
  split at found
  · rename_i found'
    rw [found', eq_of_beq found]
  · contradiction

/-- Once the file has lines another addition fails and changes nothing, and the measure that counts
is that of the update. -/
theorem after_is_typed_map_file :
    let store := (∅ : Store metrics).after history
    ((lines .add 8).perform store).result ≠ .ok () ∧ ((lines .add 8).perform store).state = store ∧
      store.get "F" "ncloc" = .ok (some ⟨"ncloc", .int 5⟩) ∧
      ⟨"F", "ncloc", .int 5⟩ ∈ store.records ∧
      ∃ declared, metrics.find? "ncloc" = some declared ∧
        (Value.int 5).Fits declared.valueType := by
  intro store
  obtain ⟨next, reads, lists, -, -, -, typed⟩ := Store.after_is_typed_map metrics history
  have refused : ((lines .add 8).perform store).result ≠ .ok () := by
    intro ok
    have free : Store.lastWritten _ "F" "ncloc" = none := ((next (lines .add 8)).1.mp ok).2
    rw [last_written] at free
    contradiction
  refine ⟨refused, (next (lines .add 8)).2 refused, ?_, ?_, ?_⟩
  · rw [reads, if_pos (by decide), last_written]
  · exact (lists ⟨"F", "ncloc", .int 5⟩).mpr ⟨_, last_written, rfl⟩
  · exact (typed "F" "ncloc" _ last_written).2

end HistoryWitnesses

end Metrology
