import Metrology.Proofs.Batches
import Metrology.Proofs.CrawlOrder

/-! # What runs that succeed log

A run that succeeds has written what its parts have written, one after the other. Of the events in
its log some are picked out: those that tell where it went, and those that tell what it stored. An
action that only differs in what it writes gives the same result and leaves the same state.
-/

namespace Metrology

/-! ## Events by what they tell -/

namespace Event

/-- The component that a crawl enters. -/
def entered? : Event → Option String
  | .visiting component _ => some component
  | _ => none

/-- The measure that is about to be stored, with its slot. -/
def stored? : Event → Option (Slot × Measure)
  | .measureCreated component metric value | .measureAdded component metric value =>
    some (⟨component, metric⟩, ⟨metric, value⟩)
  | _ => none

/-- The number of formulas that were run, with the number of measures they stored. -/
def rolledUp? : Event → Option (Nat × Nat)
  | .formulasExecuted formulas measures => some (formulas, measures)
  | _ => none

/-- The computer that has run, by its place, with the component it has run on. -/
def ran? : Event → Option (Nat × String)
  | .computerExecuted computer component => some (computer, component)
  | _ => none

/-- The step that was executed, with the number of measures it has added. -/
def executed? : Event → Option (String × Nat)
  | .stepExecuted step measures => some (step, measures)
  | _ => none

end Event

namespace Action

variable {σ α β ι : Type}

/-! ## Successful runs -/

/-- Where the action succeeds, `R` leads by what it writes to the state it leaves behind. -/
def Leads (R : σ → List Entry → σ → Prop) (x : Action σ α) : Prop :=
  ∀ s a, (x s).result = .ok a → R s (x s).journal (x s).state

/-- Relations that belong to lists of items: what holds of two stretches in a row, each with its
items, holds of both with the items of both. -/
class IsItemized (R : List ι → σ → List Entry → σ → Prop) : Prop where
  nil (s : σ) : R [] s [] s
  append {items items' : List ι} {s t u : σ} {first second : List Entry} :
    R items s first t → R items' t second u → R (items ++ items') s (first ++ second) u

namespace Leads

variable {R : List ι → σ → List Entry → σ → Prop} [IsItemized R] {x : Action σ α}
  {f : α → Action σ β} {items items' : List ι}

theorem pure (a : α) : Leads (R []) (Pure.pure a : Action σ α) :=
  fun s _ _ => IsItemized.nil s

theorem ofExcept (result : Except Fault α) : Leads (R []) (Action.ofExcept result) := by
  intro s a ok
  cases result with
  | ok value => exact IsItemized.nil s
  | error fault => contradiction

theorem bind (first : Leads (R items) x) (next : ∀ a, Leads (R items') (f a)) :
    Leads (R (items ++ items')) (x >>= f) := by
  intro s b ok
  obtain ⟨a, result, rest⟩ := of_bind_eq_ok ok
  rw [bind_apply_ok f result]
  exact IsItemized.append (first s a result) (next a _ b rest)

/-- An action without items before another one. -/
theorem bind_nil (first : Leads (R []) x) (next : ∀ a, Leads (R items) (f a)) :
    Leads (R items) (x >>= f) :=
  bind first next

/-- An action without items after another one. -/
theorem bind_last (first : Leads (R items) x) (next : ∀ a, Leads (R []) (f a)) :
    Leads (R items) (x >>= f) := by
  have both := bind first next
  rwa [List.append_nil] at both

theorem forM {xs : List β} {f : β → Action σ Unit} {items : β → List ι}
    (each : ∀ x ∈ xs, Leads (R (items x)) (f x)) :
    Leads (R (xs.flatMap items)) (ForM.forM xs f) := by
  induction xs with
  | nil => exact pure ()
  | cons x xs ih =>
    rw [List.forM_cons, List.flatMap_cons]
    exact bind (each x List.mem_cons_self)
      fun _ => ih fun y mem => each y (List.mem_cons_of_mem _ mem)

theorem forM_nil {xs : List β} {f : β → Action σ Unit} (each : ∀ x ∈ xs, Leads (R []) (f x)) :
    Leads (R []) (ForM.forM xs f) := by
  have leads : Leads (R (xs.flatMap fun _ => [])) (ForM.forM xs f) := forM each
  rwa [List.flatMap_eq_nil_iff.mpr fun _ _ => rfl] at leads

end Leads

/-- A count that starts from zero is the result. -/
theorem Leads.of_counting {R : Counted σ → List Entry → Counted σ → Prop}
    {x : Action (Counted σ) Unit} (leads : Leads R x) {s : σ} {n : Nat}
    (ok : (counting x s).result = .ok n) :
    R ⟨s, 0⟩ (counting x s).journal ⟨(counting x s).state, n⟩ := by
  have counted := result_counting x s
  rw [ok] at counted
  cases result : (x ⟨s, 0⟩).result with
  | ok done =>
    rw [result] at counted
    obtain rfl : n = (x ⟨s, 0⟩).state.count := Except.ok.inj counted
    rw [journal_counting, state_counting]
    exact leads ⟨s, 0⟩ done result
  | error fault =>
    rw [result] at counted
    contradiction

/-! ## What is told -/

/-- The events that `pick` picks out of the journal tell `told`. -/
def Told (pick : Event → Option β) (told : List β) (_ : σ) (journal : List Entry) (_ : σ) : Prop :=
  (journal.filterMap Entry.event?).filterMap pick = told

instance (pick : Event → Option β) : IsItemized (Told (σ := σ) pick) where
  nil _ := rfl
  append first second := by
    unfold Told at first second ⊢
    rw [List.filterMap_append, List.filterMap_append, first, second]

/-- The events that `pick` picks out tell what `tells` says of each of the components. -/
def ToldOf (pick : Event → Option β) (tells : Component → List β) (cs : List Component) :
    σ → List Entry → σ → Prop :=
  Told pick (cs.flatMap tells)

instance (pick : Event → Option β) (tells : Component → List β) :
    IsItemized (ToldOf (σ := σ) pick tells) where
  nil s := IsItemized.nil (R := Told pick) s
  append first second := by
    rw [ToldOf, List.flatMap_append]
    exact IsItemized.append (R := Told pick) first second

section Told

variable {pick : Event → Option β} {told : List β}

theorem told_emit (event : Event) :
    Leads (Told pick (pick event).toList) (emit event : Action σ Unit) := by
  intro s _ _
  cases picked : pick event <;> simp [Told, emit, note, Entry.event?, picked]

theorem told_emitIf {event : Event} (quiet : pick event = none) (condition : Bool) :
    Leads (Told pick []) (emitIf condition event : Action σ Unit) := by
  cases condition with
  | true =>
    have leads : Leads (Told pick (pick event).toList) (emit event : Action σ Unit) :=
      told_emit event
    rwa [quiet] at leads
  | false => exact Leads.pure ()

theorem told_change (f : σ → Except Fault σ) : Leads (Told pick []) (change f) := by
  intro s _ _
  rw [Told, journal_change]
  rfl

theorem told_countOne : Leads (Told pick []) (countOne : Action (Counted σ) Unit) :=
  fun _ _ _ => rfl

theorem told_uncounted {x : Action σ α} (leads : Leads (Told pick told) x) :
    Leads (Told pick told) (uncounted x) :=
  fun s a ok => leads s.state a ok

end Told

/-! ## What is stored -/

/-- The measures that a journal tells of, in order. -/
def storedBy (journal : List Entry) : List (Slot × Measure) :=
  (journal.filterMap Entry.event?).filterMap Event.stored?

theorem storedBy_append (first second : List Entry) :
    storedBy (first ++ second) = storedBy first ++ storedBy second := by
  simp only [storedBy, List.filterMap_append]

/-- Storing what the journal tells of, in this order, leads from one store to the other. -/
def Replays {catalog : Catalog} (before : Store catalog) (journal : List Entry)
    (after : Store catalog) : Prop :=
  before.addAll (storedBy journal) = some after

instance {catalog : Catalog} : IsLedger (@Replays catalog) where
  nil _ := rfl
  append first second := by
    unfold Replays at first second ⊢
    rw [storedBy_append, Store.addAll_append, first, Option.bind_some, second]

/-- What the journal tells of is what was stored on the way, and as many measures were counted.
Where the way has led does not matter. -/
def Tallies {catalog : Catalog} (_ : List Component) (before : Counted (Store catalog))
    (journal : List Entry) (after : Counted (Store catalog)) : Prop :=
  Replays before.state journal after.state ∧
    after.count = before.count + (storedBy journal).length

instance {catalog : Catalog} : IsItemized (@Tallies catalog) where
  nil s := ⟨IsLedger.nil s.state, rfl⟩
  append first second := by
    refine ⟨IsLedger.append first.1 second.1, ?_⟩
    rw [second.2, first.2, storedBy_append, List.length_append, Nat.add_assoc]

/-! ## Actions that differ in what they write -/

theorem unlogged_bind_congr {x y : Action σ α} {f g : α → Action σ β}
    (first : x.unlogged = y.unlogged) (next : ∀ a, (f a).unlogged = (g a).unlogged) :
    (x >>= f).unlogged = (y >>= g).unlogged := by
  simp only [unlogged_bind, first, next]

theorem unlogged_forM_congr {xs : List β} {f g : β → Action σ Unit}
    (each : ∀ x ∈ xs, (f x).unlogged = (g x).unlogged) :
    (forM xs f).unlogged = (forM xs g).unlogged := by
  rw [unlogged_forM, unlogged_forM]
  exact forM_congr_of_mem each

theorem unlogged_emitIf (condition : Bool) (event : Event) :
    (emitIf condition event : Action σ Unit).unlogged = pure () := by
  cases condition <;> rfl

theorem unlogged_uncounted_congr {x y : Action σ α} (same : x.unlogged = y.unlogged) :
    (uncounted x).unlogged = (uncounted y).unlogged := by
  funext s
  obtain ⟨result, state⟩ := Prod.mk.inj (congrFun same s.state)
  simp only [unlogged, uncounted, result, state]

theorem unlogged_counting_congr {x y : Action (Counted σ) Unit} (same : x.unlogged = y.unlogged) :
    (counting x).unlogged = (counting y).unlogged := by
  funext s
  obtain ⟨result, state⟩ := Prod.mk.inj (congrFun same ⟨s, 0⟩)
  simp only [unlogged, result_counting, state_counting, result, state]

end Action

end Metrology
