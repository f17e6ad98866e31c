import Metrology.Proofs.Aggregation.Fusion

/-! # Running formulas again

Formulas that do not read each other's outputs make the same of a store when they are run on it a
second time. Where the first run has stored nothing the second one does as well; otherwise it fails
at the first measure that the first one has stored, and leaves the store as it is.
-/

namespace Metrology.Formula

open Metrology.Action Store Component

variable {κ α β : Type} {catalog : Catalog}

theorem exists_of_mapM_bind_eq_some {γ : Type} {xs : List α} {f : α → Option β}
    {next : α → β → Option γ} {ys : List γ} (default : α → β)
    (h : (xs.mapM fun x => (f x).bind (next x)) = some ys) :
    ∃ g : α → β, ∀ x ∈ xs, f x = some (g x) := by
  cases there : xs.mapM f with
  | none =>
    rw [mapM_bind_of_none there next] at h
    contradiction
  | some values =>
    obtain ⟨g, -, each⟩ := exists_map_of_mapM_eq_some default there
    exact ⟨g, each⟩

/-! ## Batches that are stored already -/

/-- All slots of the batch are taken, and nothing else stands in the way of its measures. -/
def Taken (store : Store catalog) (batch : List (Slot × Measure)) : Prop :=
  ∀ entry ∈ batch, store.add entry.1.component entry.1.metric entry.2 =
    .error (.measureConflict entry.1.metric entry.1.component)

/-- What comes of storing a batch all slots of which are taken, before giving a result. -/
def conflictOr (batch : List (Slot × Measure)) (a : α) : Except Fault α :=
  match batch with
  | [] => .ok a
  | (slot, _) :: _ => .error (.measureConflict slot.metric slot.component)

theorem taken_append {store : Store catalog} {batch batch' : List (Slot × Measure)} :
    Taken store (batch ++ batch') ↔ Taken store batch ∧ Taken store batch' :=
  List.forall_mem_append

/-- What was stored once can not be stored again. -/
theorem taken_of_addAll {store after : Store catalog} {batch : List (Slot × Measure)}
    (stored : store.addAll batch = some after) : Taken after batch := by
  intro entry mem
  obtain ⟨slot, measure⟩ := entry
  have held := ((gained_of_addAll stored).2 slot measure).mp mem |>.2
  have noObjection := Catalog.objection?_eq_none_iff.mpr (admits_of_find? held)
  unfold Store.add
  split
  · rename_i fault objects
    rw [noObjection] at objects
    contradiction
  · rw [held]

/-- The action comes to storing a batch that is stored already. It changes nothing, gives its result
if there is nothing to store, and fails otherwise. So all parts of a run that goes on meet the state
in which it began. -/
def Repeats (x : Action (Counted (Store catalog)) α) (batch : List (Slot × Measure)) (a : α)
    (s : Counted (Store catalog)) : Prop :=
  (x s).state = s ∧ (x s).result = conflictOr batch a

namespace Repeats

variable {s : Counted (Store catalog)} {own rest : List (Slot × Measure)} {a : α} {b : β}

theorem bind {x : Action (Counted (Store catalog)) α} {f : α → Action (Counted (Store catalog)) β}
    (first : Repeats x own a s) (next : Repeats (f a) rest b s) :
    Repeats (x >>= f) (own ++ rest) b s := by
  obtain ⟨state, result⟩ := first
  cases own with
  | nil =>
    rw [Repeats, bind_apply_ok f result, state]
    exact next
  | cons entry own =>
    rw [Repeats, bind_apply_error f result]
    exact ⟨state, rfl⟩

theorem bind_pure {x : Action (Counted (Store catalog)) α} (first : Repeats x own a s) (b : β) :
    Repeats (x >>= fun _ => Pure.pure b) own b s := by
  rw [← List.append_nil own]
  exact first.bind ⟨rfl, rfl⟩

theorem bind_ofExcept {result : Except Fault α} {f : α → Action (Counted (Store catalog)) β}
    (ok : result = .ok a) (next : Repeats (f a) own b s) :
    Repeats (Action.ofExcept result >>= f) own b s := by
  rw [ok]
  exact next

theorem forM {xs : List α} {f : α → Action (Counted (Store catalog)) Unit}
    {part : α → Option (List (Slot × Measure))} {batch : List (Slot × Measure)}
    (each : ∀ x ∈ xs, ∀ own, part x = some own → Taken s.state own → Repeats (f x) own () s)
    (collected : collect xs part = some batch) (taken : Taken s.state batch) :
    Repeats (ForM.forM xs f) batch () s := by
  induction xs generalizing batch with
  | nil =>
    cases collected
    exact ⟨rfl, rfl⟩
  | cons x xs ih =>
    rw [collect_cons] at collected
    obtain ⟨own, first, collected⟩ := Option.bind_eq_some_iff.mp collected
    obtain ⟨rest, others, collected⟩ := Option.bind_eq_some_iff.mp collected
    cases collected
    obtain ⟨taken, taken'⟩ := taken_append.mp taken
    rw [List.forM_cons]
    exact (each x List.mem_cons_self own first taken).bind
      (ih (fun y mem => each y (List.mem_cons_of_mem _ mem)) others taken')

end Repeats

theorem repeats_storeOutput (traced : Bool) {c : Component} {f : Formula κ} {counter : κ}
    {key : String} {own : List (Slot × Measure)} {s : Counted (Store catalog)}
    (makes : made catalog c f counter key = some own) (taken : Taken s.state own) :
    Repeats (storeOutput traced c f counter key) own () s := by
  obtain ⟨metric, known, makes⟩ := Option.bind_eq_some_iff.mp makes
  obtain ⟨measure?, made, makes⟩ := Option.bind_eq_some_iff.mp makes
  cases makes
  refine Repeats.bind_ofExcept (toOption_eq_some_iff.mp known) ?_
  refine Repeats.bind_ofExcept (toOption_eq_some_iff.mp made) ?_
  cases measure? with
  | none => exact ⟨rfl, rfl⟩
  | some measure =>
    have refused := taken (⟨c.key, key⟩, measure) (by simp)
    cases traced <;>
      simp [Repeats, conflictOr, emitIf, emit, note, Bind.bind, Action.bind, Pure.pure, Action.pure,
        uncounted, Action.change, refused]

variable [Counter κ] {formulas : List (Formula κ)} {inputs : Formula κ → List String}
  {limit : DepthLimit} {traced : Bool} {start : Store catalog} {s : Counted (Store catalog)}
  {own : List (Slot × Measure)}

theorem repeats_storeOutputs {counter : Formula κ → κ} {c : Component}
    (tallied : ∀ f ∈ formulas, tally limit start f c = some (counter f))
    (rows : row limit start formulas c = some own) (taken : Taken s.state own) :
    Repeats (storeOutputs traced c formulas (formulas.map counter)) own () s := by
  rw [storeOutputs, ← List.map_prod_left_eq_zip, List.forM_eq_forM, List.forM_map]
  refine Repeats.forM (fun f mem own batches taken => ?_) rows taken
  rw [batch, tallied f mem] at batches
  exact Repeats.forM (fun key _ own makes taken => repeats_storeOutput traced makes taken) batches
    taken

/-- Once the children are done a component comes to storing its row again. -/
theorem repeats_complete (unentangled : Unentangled formulas inputs)
    (same : SameInputs formulas inputs s.state start) {profile : Profile}
    {children : List Component} {counter : Formula κ → κ} {tallied : List κ}
    (gathered : ∀ f ∈ formulas, tallyAll limit start f children f.counter = some (counter f))
    (tallies : (formulas.mapM fun f => tally limit start f (.node profile children)) = some tallied)
    (rows : row limit start formulas (.node profile children) = some own)
    (taken : Taken s.state own) :
    Repeats (complete formulas limit traced (.node profile children) (formulas.map counter)) own
      tallied s := by
  have counts : ∀ f ∈ formulas, Counts f (counter f) :=
    fun f mem => counts_of_tallyAll .start (gathered f mem)
  have fedAt : feedAt limit s.state (.node profile children) (formulas.map counter) =
      .ok tallied := by
    refine toOption_eq_some_iff.mp ?_
    rw [toOption_feedAt unentangled.reads (same.restrict _) counts, ← tallies]
    simp only [tally_node, mapM_bind_of_some gathered]
  obtain ⟨counter', rfl, tallied⟩ := exists_map_of_mapM_eq_some counter tallies
  change Repeats (Action.ofExcept
    (feedAt limit s.state (.node profile children) (formulas.map counter)) >>= fun fed =>
      storeOutputs traced _ formulas fed >>= fun _ => pure fed) own (formulas.map counter') s
  exact Repeats.bind_ofExcept fedAt ((repeats_storeOutputs tallied rows taken).bind_pure _)

/-- A crawl from this component comes to storing again what the rows of the components it visits
hold. -/
def CrawlRepeats (formulas : List (Formula κ)) (inputs : Formula κ → List String)
    (limit : DepthLimit) (traced : Bool) (start : Store catalog) (c : Component) : Prop :=
  ∀ (depth : Nat) {s : Counted (Store catalog)} {own : List (Slot × Measure)} {tallied : List κ},
    SameInputs formulas inputs s.state start → Taken s.state own →
    collect (c.visitedUp limit) (row limit start formulas) = some own →
    (formulas.mapM fun f => tally limit start f c) = some tallied →
    Repeats (gather formulas limit traced c depth) own tallied s

theorem repeats_gatherAll {cs : List Component}
    (each : ∀ c ∈ cs, limit.Allows c.kind → CrawlRepeats formulas inputs limit traced start c)
    (depth : Nat) (counter : Formula κ → κ) {tallied : List κ}
    (same : SameInputs formulas inputs s.state start) (taken : Taken s.state own)
    (rows : collect (cs.flatMap (visitedUp limit)) (row limit start formulas) = some own)
    (tallies : (formulas.mapM fun f => tallyAll limit start f cs (counter f)) = some tallied) :
    Repeats (gatherAll formulas limit traced cs depth (formulas.map counter)) own tallied s := by
  induction cs generalizing counter own with
  | nil =>
    rw [mapM_eq_some_map fun f _ => tallyAll.eq_1 limit start f (counter f)] at tallies
    cases rows
    cases tallies
    exact ⟨rfl, rfl⟩
  | cons c cs ih =>
    have rest := fun d mem => each d (List.mem_cons_of_mem _ mem)
    rw [List.flatMap_cons] at rows
    by_cases allowed : limit.Allows c.kind
    · simp only [tallyAll_cons_of_allows allowed] at tallies
      obtain ⟨child, tallied'⟩ := exists_of_mapM_bind_eq_some counter tallies
      rw [mapM_bind_of_some tallied'] at tallies
      obtain ⟨grown, grows⟩ := exists_of_mapM_bind_eq_some counter tallies
      rw [mapM_bind_of_some grows] at tallies
      have folded : fold (formulas.map counter) (formulas.map child) =
          .ok (formulas.map grown) := by
        refine toOption_eq_some_iff.mp ?_
        rw [toOption_fold, mapM_eq_some_map grows]
      rw [collect_append] at rows
      obtain ⟨first, row, rows⟩ := Option.bind_eq_some_iff.mp rows
      obtain ⟨others, rows', rows⟩ := Option.bind_eq_some_iff.mp rows
      cases rows
      obtain ⟨taken, taken'⟩ := taken_append.mp taken
      rw [gatherAll, if_pos allowed]
      refine (each c List.mem_cons_self allowed depth same taken row
        (mapM_eq_some_map tallied')).bind ?_
      exact Repeats.bind_ofExcept folded (ih rest grown taken' rows' tallies)
    · rw [visitedUp_eq_nil allowed, List.nil_append] at rows
      simp only [tallyAll, if_neg allowed] at tallies
      rw [gatherAll, if_neg allowed]
      exact ih rest counter taken rows tallies

theorem crawlRepeats (unentangled : Unentangled formulas inputs) {c : Component}
    (allowed : limit.Allows c.kind) : CrawlRepeats formulas inputs limit traced start c := by
  induction c with
  | node profile children ih =>
    intro depth s own tallied same taken rows tallies
    rw [visitedUp_eq_append allowed, collect_append] at rows
    obtain ⟨below, rows', rows⟩ := Option.bind_eq_some_iff.mp rows
    obtain ⟨last, row, rows⟩ := Option.bind_eq_some_iff.mp rows
    cases rows
    obtain ⟨taken, taken'⟩ := taken_append.mp taken
    rw [collect_singleton] at row
    have gathered := tallies
    simp only [tally_node] at gathered
    obtain ⟨counter, gathered⟩ := exists_of_mapM_bind_eq_some Formula.counter gathered
    have children := repeats_gatherAll ih (depth + 1) Formula.counter same taken rows'
      (mapM_eq_some_map gathered)
    exact children.bind (repeats_complete unentangled same gathered tallies row taken')

/-- A run that comes to storing again what its rows hold. -/
theorem repeats_rollUp (unentangled : Unentangled formulas inputs) {root : Component}
    {store : Store catalog} (same : SameInputs formulas inputs store start)
    (taken : Taken store own)
    (rows : collect (root.visitedUp limit) (row limit start formulas) = some own) :
    (rollUp formulas limit traced root store).state = store ∧
      (rollUp formulas limit traced root store).result = conflictOr own 0 := by
  by_cases allowed : limit.Allows root.kind
  · obtain ⟨result, state⟩ := @rollUp_apply _ catalog _ formulas limit traced root allowed store
    obtain ⟨tallied, tallies⟩ : ∃ tallied,
        (formulas.mapM fun f => tally limit start f root) = some tallied := by
      refine Option.ne_none_iff_exists'.mp fun missing => ?_
      rw [collect_row_eq_none allowed missing] at rows
      contradiction
    have repeated : Repeats (gather formulas limit traced root 0) own tallied ⟨store, 0⟩ :=
      crawlRepeats unentangled allowed 0 same taken rows tallies
    rw [result, state, repeated.1, repeated.2]
    refine ⟨rfl, ?_⟩
    cases own <;> rfl
  · rw [rollUp_of_not_allows allowed]
    rw [visitedUp_eq_nil allowed] at rows
    cases rows
    exact ⟨rfl, rfl⟩

theorem sublist_of_collect {xs : List α} {part : α → Option (List (Slot × Measure))}
    {slots : α → List Slot} {batch : List (Slot × Measure)}
    (each : ∀ x own, part x = some own → (own.map Prod.fst).Sublist (slots x))
    (collected : collect xs part = some batch) :
    (batch.map Prod.fst).Sublist (xs.flatMap slots) := by
  induction xs generalizing batch with
  | nil =>
    cases collected
    exact .slnil
  | cons x xs ih =>
    rw [collect_cons] at collected
    obtain ⟨own, first, collected⟩ := Option.bind_eq_some_iff.mp collected
    obtain ⟨rest, others, collected⟩ := Option.bind_eq_some_iff.mp collected
    cases collected
    rw [List.map_append, List.flatMap_cons]
    exact (each x own first).append (ih others)

/-- The slots of all outputs at the components a crawl visits, from the leaves up and at each
component formula by formula. -/
def outputSlots (formulas : List (Formula κ)) (limit : DepthLimit) (root : Component) : List Slot :=
  (root.visitedUp limit).flatMap fun c =>
    formulas.flatMap fun f => f.outputs.map fun key => ⟨c.key, key⟩

theorem slots_sublist_outputSlots {root : Component}
    (rows : collect (root.visitedUp limit) (row limit start formulas) = some own) :
    (own.map Prod.fst).Sublist (outputSlots formulas limit root) := by
  refine sublist_of_collect (fun c own rows => ?_) rows
  refine sublist_of_collect (fun f own batches => ?_) rows
  obtain ⟨counter, -, batches⟩ := Option.bind_eq_some_iff.mp batches
  rw [show (f.outputs.map fun key => Slot.mk c.key key) =
    f.outputs.flatMap fun key => [⟨c.key, key⟩] from List.map_eq_flatMap ..]
  refine sublist_of_collect (fun key own makes => ?_) batches
  obtain ⟨metric, -, makes⟩ := Option.bind_eq_some_iff.mp makes
  obtain ⟨measure?, -, makes⟩ := Option.bind_eq_some_iff.mp makes
  cases makes
  cases measure? <;> simp

theorem Unentangled.of_library (library : ∀ f ∈ formulas, Library f (inputs f))
    (apart : ∀ f ∈ formulas, ∀ g ∈ formulas, ∀ key ∈ f.outputs, key ∉ inputs g) :
    Unentangled formulas inputs where
  reads f mem := (library f mem).readsOnly
  apart := by
    rintro g mem key isInput ⟨f, mem', makes⟩
    exact apart f mem' g mem key makes isInput

/-- Formulas of the library none of which makes what one of them gathers can be run again after a
run that succeeds. If the first run has stored nothing the second one succeeds and stores nothing
either. Otherwise it fails with a conflict at the first measure of the first run, from the leaves up
and at each component formula by formula. Either way the store stays as it is. -/
theorem rollUp_again_changes_nothing (library : ∀ f ∈ formulas, Library f (inputs f))
    (apart : ∀ f ∈ formulas, ∀ g ∈ formulas, ∀ key ∈ f.outputs, key ∉ inputs g)
    (limit : DepthLimit) (traced : Bool) (root : Component) (store : Store catalog) {stored : Nat}
    (ran : (rollUp formulas limit traced root store).result = .ok stored) :
    let after := (rollUp formulas limit traced root store).state
    let again := rollUp formulas limit traced root after
    ∃ created : List (Slot × Measure),
      collect (root.visitedUp limit) (row limit store formulas) = some created ∧
      store.addAll created = some after ∧ created.length = stored ∧
      (created.map Prod.fst).Sublist (outputSlots formulas limit root) ∧
      (∀ slot measure, (slot, measure) ∈ created ↔
        store.find? slot.component slot.metric = none ∧
          after.find? slot.component slot.metric = some measure) ∧
      again.state = after ∧
      again.result = match created with
        | [] => .ok 0
        | (first, _) :: _ => .error (.measureConflict first.metric first.component) := by
  intro after again
  have unentangled := Unentangled.of_library library apart
  have settles : (rollUp formulas limit traced root).settled store = some (stored, after) :=
    settled_of_ok ran
  rw [settled_rollUp unentangled fun _ _ _ _ _ => rfl] at settles
  obtain ⟨created, rows, settles⟩ := Option.bind_eq_some_iff.mp settles
  obtain ⟨store', added, settles⟩ := Option.bind_eq_some_iff.mp settles
  obtain ⟨counted, rfl⟩ := Prod.mk.inj (Option.some.inj settles)
  have same : SameInputs formulas inputs after store :=
    SameInputs.of_grows unentangled (keeps_rollUp formulas limit traced root store)
      (fun written => written.2) fun _ _ _ _ _ => rfl
  obtain ⟨state, result⟩ := repeats_rollUp unentangled same (taken_of_addAll added) rows
  exact ⟨created, rows, added, counted, slots_sublist_outputSlots rows, (gained_of_addAll added).2,
    state, result⟩

end Metrology.Formula

namespace Metrology.RerunWitnesses

open FusionWitnesses

def lines : List (Formula (SumCounter Int32)) :=
  [.sum "ncloc" "lines"]

def first : Outcome (Store metrics) Nat :=
  Formula.rollUp lines .file false root measured

def again : Outcome (Store metrics) Nat :=
  Formula.rollUp lines .file false root first.state

/-- The first run stores the lines of two files and their sum, the second one fails at the first
file. -/
theorem rollUp_again_changes_nothing_lines :
    (∀ f ∈ lines, Formula.Library f (gathered f)) ∧
      (∀ f ∈ lines, ∀ g ∈ lines, ∀ key ∈ f.outputs, key ∉ gathered g) ∧ first.result = .ok 3 ∧
      again.result = .error (.measureConflict "lines" "F") ∧ again.state = first.state ∧
      ∃ created : List (Slot × Measure), created.length = 3 ∧
        measured.addAll created = some first.state ∧
        (created.map Prod.fst).Sublist (Formula.outputSlots lines .file root) := by
  have library : ∀ f ∈ lines, Formula.Library f (gathered f) :=
    List.forall_mem_singleton.mpr (.sum "ncloc" "lines")
  have apart : ∀ f ∈ lines, ∀ g ∈ lines, ∀ key ∈ f.outputs, key ∉ gathered g := by decide
  have ran : first.result = .ok 3 := by decide +kernel
  obtain ⟨created, -, added, counted, slots, -, state, -⟩ :=
    Formula.rollUp_again_changes_nothing library apart .file false root measured ran
  exact ⟨library, apart, ran, by decide +kernel, state, created, counted, added, slots⟩

end Metrology.RerunWitnesses
