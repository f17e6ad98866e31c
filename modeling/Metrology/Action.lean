import Metrology.Journal

/-! # Actions

An action changes a state, keeps a journal, and gives a result or fails. What it did before a
failure stays done: the state and the journal are those of the moment it failed.
-/

namespace Metrology

/-- What an action leaves behind. -/
structure Outcome (σ α : Type) where
  result : Except Fault α
  state : σ
  journal : List Entry

namespace Outcome

variable {σ α : Type}

/-- The events of the journal. -/
def events (outcome : Outcome σ α) : List Event :=
  outcome.journal.filterMap Entry.event?

/-- The questions and answers in the journal. -/
def exchanges (outcome : Outcome σ α) : List Exchange :=
  outcome.journal.filterMap Entry.exchange?

/-- The remarks in the journal. -/
def remarks (outcome : Outcome σ α) : List Datum :=
  outcome.journal.filterMap Entry.remark?

end Outcome

/-- A computation over a state of type `σ` with a result of type `α`. -/
def Action (σ α : Type) : Type :=
  σ → Outcome σ α

namespace Action

variable {σ α β γ : Type}

protected def pure (a : α) : Action σ α := fun s =>
  ⟨.ok a, s, []⟩

protected def bind (x : Action σ α) (f : α → Action σ β) : Action σ β := fun s =>
  match x s with
  | ⟨.ok a, s', journal⟩ =>
    let rest := f a s'
    ⟨rest.result, rest.state, journal ++ rest.journal⟩
  | ⟨.error fault, s', journal⟩ => ⟨.error fault, s', journal⟩

instance : Monad (Action σ) where
  pure := Action.pure
  bind := Action.bind

private theorem bind_pure_id (x : Action σ α) : id <$> x = x := by
  funext s
  simp only [Functor.map, Action.bind, Action.pure, Function.comp]
  cases h : x s with
  | mk result state journal => cases result <;> simp

private theorem bind_bind (x : Action σ α) (f : α → Action σ β) (g : β → Action σ γ) :
    x >>= f >>= g = x >>= fun a => f a >>= g := by
  funext s
  simp only [bind, Action.bind]
  cases x s with
  | mk result state journal =>
    cases result with
    | error fault => simp
    | ok a =>
      simp only
      cases f a state with
      | mk result' state' journal' => cases result' <;> simp

instance : LawfulMonad (Action σ) :=
  LawfulMonad.mk' (Action σ) bind_pure_id
    (fun a f => by
      funext s
      simp [bind, pure, Action.bind, Action.pure])
    bind_bind

/-- Fails, having done nothing. -/
def fail (fault : Fault) : Action σ α := fun s =>
  ⟨.error fault, s, []⟩

/-- The result, or the failure, of a computation that touches nothing. -/
def ofExcept : Except Fault α → Action σ α
  | .ok a => pure a
  | .error fault => fail fault

/-- The present state. -/
def get : Action σ σ := fun s =>
  ⟨.ok s, s, []⟩

/-- Replaces the state by what `f` makes of it; if `f` fails the state stays. -/
def change (f : σ → Except Fault σ) : Action σ Unit := fun s =>
  match f s with
  | .ok s' => ⟨.ok (), s', []⟩
  | .error fault => ⟨.error fault, s, []⟩

/-- Writes an entry into the journal. -/
def note (entry : Entry) : Action σ Unit := fun s =>
  ⟨.ok (), s, [entry]⟩

/-- Writes an event into the journal. -/
def emit (event : Event) : Action σ Unit :=
  note (.event event)

/-- Writes an event into the journal if asked to. -/
def emitIf (condition : Bool) (event : Event) : Action σ Unit :=
  if condition then emit event else pure ()

end Action

/-- A state together with a count. -/
structure Counted (σ : Type) where
  state : σ
  count : Nat

namespace Action

variable {σ α : Type}

/-- Leaves the count as it is. -/
def uncounted (x : Action σ α) : Action (Counted σ) α := fun s =>
  let outcome := x s.state
  ⟨outcome.result, ⟨outcome.state, s.count⟩, outcome.journal⟩

/-- Adds one to the count. -/
def countOne : Action (Counted σ) Unit := fun s =>
  ⟨.ok (), ⟨s.state, s.count + 1⟩, []⟩

/-- Counts from zero and gives the count reached at the end. -/
def counting (x : Action (Counted σ) Unit) : Action σ Nat := fun s =>
  match x ⟨s, 0⟩ with
  | ⟨.ok (), s', journal⟩ => ⟨.ok s'.count, s'.state, journal⟩
  | ⟨.error fault, s', journal⟩ => ⟨.error fault, s'.state, journal⟩

end Action

end Metrology
