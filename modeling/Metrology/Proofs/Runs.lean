import Mathlib.Order.Defs.Unbundled
import Mathlib.Data.List.Basic
import Metrology.Action

/-! # Runs of actions

How the outcome of a composed action comes about: what its parts do to the state, what of it counts
when only success counts, and which part wrote an entry of the journal.
-/

namespace Metrology.Action

variable {σ α β γ : Type}

@[simp] theorem pure_apply (a : α) (s : σ) : (pure a : Action σ α) s = ⟨.ok a, s, []⟩ := rfl

theorem bind_apply_ok {x : Action σ α} (f : α → Action σ β) {s : σ} {a : α}
    (h : (x s).result = .ok a) :
    (x >>= f) s = ⟨(f a (x s).state).result, (f a (x s).state).state,
      (x s).journal ++ (f a (x s).state).journal⟩ := by
  change Action.bind x f s = _
  unfold Action.bind
  cases run : x s with
  | mk result state journal =>
    rw [run] at h
    subst h
    rfl

theorem bind_apply_error {x : Action σ α} (f : α → Action σ β) {s : σ} {fault : Fault}
    (h : (x s).result = .error fault) :
    (x >>= f) s = ⟨.error fault, (x s).state, (x s).journal⟩ := by
  change Action.bind x f s = _
  unfold Action.bind
  cases run : x s with
  | mk result state journal =>
    rw [run] at h
    subst h
    rfl

/-- Where two actions in a row succeed, each of them does. -/
theorem of_bind_eq_ok {x : Action σ α} {f : α → Action σ β} {s : σ} {b : β}
    (h : ((x >>= f) s).result = .ok b) :
    ∃ a, (x s).result = .ok a ∧ (f a (x s).state).result = .ok b := by
  cases result : (x s).result with
  | ok a =>
    rw [bind_apply_ok f result] at h
    exact ⟨a, rfl, h⟩
  | error fault =>
    rw [bind_apply_error f result] at h
    contradiction

theorem result_ofExcept (result : Except Fault α) (s : σ) :
    (ofExcept result s).result = result := by
  cases result <;> rfl

/-- Giving something else as the result changes nothing else. -/
theorem replace_apply (x : Action σ α) (b : β) (s : σ) :
    (x >>= fun _ => pure b) s =
      ⟨(x s).result.map fun _ => b, (x s).state, (x s).journal⟩ := by
  cases result : (x s).result with
  | ok a =>
    rw [bind_apply_ok _ result, pure_apply, List.append_nil]
    rfl
  | error fault =>
    rw [bind_apply_error _ result]
    rfl

/-- Leaving the result out changes nothing else. -/
theorem discard_apply (x : Action σ α) (s : σ) :
    (x >>= fun _ => pure ()) s =
      ⟨(x s).result.map fun _ => (), (x s).state, (x s).journal⟩ :=
  replace_apply x () s

theorem get_bind_apply (f : σ → Action σ α) (s : σ) : (get >>= f) s = f s s := rfl

/-! ## What an action does to the state -/

/-- From whichever state the action starts, `R` leads to the state it leaves behind, also where it
fails. -/
def Keeps (R : σ → σ → Prop) (x : Action σ α) : Prop :=
  ∀ s, R s (x s).state

namespace Keeps

variable {R : σ → σ → Prop} [IsPreorder σ R] {x : Action σ α} {f : α → Action σ β}

theorem pure (a : α) : Keeps R (Pure.pure a : Action σ α) :=
  fun s => refl s

theorem note (entry : Entry) : Keeps R (Action.note entry : Action σ Unit) :=
  fun s => refl s

theorem ofExcept (result : Except Fault α) : Keeps R (Action.ofExcept result : Action σ α) := by
  intro s
  cases result with
  | ok a => exact refl s
  | error fault => exact refl s

theorem get : Keeps R (Action.get : Action σ σ) :=
  fun s => refl s

theorem emitIf (condition : Bool) (event : Event) :
    Keeps R (Action.emitIf condition event : Action σ Unit) := by
  cases condition with
  | true => exact note (.event event)
  | false => exact pure ()

theorem change {f : σ → Except Fault σ} (step : ∀ s s', f s = .ok s' → R s s') :
    Keeps R (Action.change f) := by
  intro s
  unfold Action.change
  cases result : f s with
  | ok s' => exact step s s' result
  | error fault => exact refl s

theorem bind_ofExcept {result : Except Fault α} (next : ∀ a, result = .ok a → Keeps R (f a)) :
    Keeps R (Action.ofExcept result >>= f) := by
  cases result with
  | ok a => exact next a rfl
  | error fault => exact fun s => refl s

theorem bind (first : Keeps R x) (next : ∀ a, Keeps R (f a)) : Keeps R (x >>= f) := by
  intro s
  cases result : (x s).result with
  | ok a =>
    rw [bind_apply_ok f result]
    exact IsTrans.trans _ _ _ (first s) (next a (x s).state)
  | error fault =>
    rw [bind_apply_error f result]
    exact first s

theorem forM {xs : List β} {f : β → Action σ Unit} (each : ∀ x ∈ xs, Keeps R (f x)) :
    Keeps R (ForM.forM xs f) := by
  induction xs with
  | nil => exact pure ()
  | cons x xs ih =>
    rw [List.forM_cons]
    exact bind (each x List.mem_cons_self)
      fun _ => ih fun y mem => each y (List.mem_cons_of_mem _ mem)

end Keeps

/-! ## What an action does and writes -/

/-- Relations between a state, what is written from there on, and a later state, which hold of two
stretches in a row if they hold of each. -/
class IsLedger (R : σ → List Entry → σ → Prop) : Prop where
  nil (s : σ) : R s [] s
  append {s t u : σ} {first second : List Entry} :
    R s first t → R t second u → R s (first ++ second) u

/-- From whichever state the action starts, `R` leads by what it writes to the state it leaves
behind, also where it fails. -/
def Accounted (R : σ → List Entry → σ → Prop) (x : Action σ α) : Prop :=
  ∀ s, R s (x s).journal (x s).state

namespace Accounted

variable {R : σ → List Entry → σ → Prop} [IsLedger R] {x : Action σ α} {f : α → Action σ β}

theorem pure (a : α) : Accounted R (Pure.pure a : Action σ α) :=
  fun s => IsLedger.nil s

theorem ofExcept (result : Except Fault α) : Accounted R (Action.ofExcept result : Action σ α) := by
  intro s
  cases result with
  | ok a => exact IsLedger.nil s
  | error fault => exact IsLedger.nil s

theorem bind (first : Accounted R x) (next : ∀ a, Accounted R (f a)) : Accounted R (x >>= f) := by
  intro s
  cases result : (x s).result with
  | ok a =>
    rw [bind_apply_ok f result]
    exact IsLedger.append (first s) (next a (x s).state)
  | error fault =>
    rw [bind_apply_error f result]
    exact first s

theorem forM {xs : List β} {f : β → Action σ Unit} (each : ∀ x ∈ xs, Accounted R (f x)) :
    Accounted R (ForM.forM xs f) := by
  induction xs with
  | nil => exact pure ()
  | cons x xs ih =>
    rw [List.forM_cons]
    exact bind (each x List.mem_cons_self)
      fun _ => ih fun y mem => each y (List.mem_cons_of_mem _ mem)

end Accounted

/-! ## What an action can tell apart -/

/-- States that `E` relates make no difference to the action: it gives the same result and writes
the same from both, and `E` relates what it makes of them. -/
def Respects (E : σ → σ → Prop) (x : Action σ α) : Prop :=
  ∀ s t, E s t → (x s).result = (x t).result ∧ (x s).journal = (x t).journal ∧
    E (x s).state (x t).state

namespace Respects

variable {E : σ → σ → Prop} {x : Action σ α} {f : α → Action σ β}

theorem pure (a : α) : Respects E (Pure.pure a : Action σ α) :=
  fun _ _ related => ⟨rfl, rfl, related⟩

theorem note (entry : Entry) : Respects E (Action.note entry : Action σ Unit) :=
  fun _ _ related => ⟨rfl, rfl, related⟩

theorem ofExcept (result : Except Fault α) :
    Respects E (Action.ofExcept result : Action σ α) := by
  cases result with
  | ok a => exact fun _ _ related => ⟨rfl, rfl, related⟩
  | error fault => exact fun _ _ related => ⟨rfl, rfl, related⟩

theorem bind (first : Respects E x) (next : ∀ a, Respects E (f a)) : Respects E (x >>= f) := by
  intro s t related
  obtain ⟨same, written, related⟩ := first s t related
  cases result : (x s).result with
  | ok a =>
    obtain ⟨same', written', related'⟩ := next a _ _ related
    rw [bind_apply_ok f result, bind_apply_ok f (same.symm.trans result), written, written']
    exact ⟨same', rfl, related'⟩
  | error fault =>
    rw [bind_apply_error f result, bind_apply_error f (same.symm.trans result)]
    exact ⟨rfl, written, related⟩

end Respects

/-! ## What remains when only success counts -/

/-- The result and the state of an action that succeeds, nothing of one that fails. -/
def settled (x : Action σ α) : StateT σ Option α := fun s =>
  match x s with
  | ⟨.ok a, s', _⟩ => some (a, s')
  | ⟨.error _, _, _⟩ => none

theorem settled_of_ok {x : Action σ α} {s : σ} {a : α} (h : (x s).result = .ok a) :
    x.settled s = some (a, (x s).state) := by
  unfold settled
  cases run : x s with
  | mk result state journal =>
    rw [run] at h
    subst h
    rfl

theorem settled_of_error {x : Action σ α} {s : σ} {fault : Fault}
    (h : (x s).result = .error fault) : x.settled s = none := by
  unfold settled
  cases run : x s with
  | mk result state journal =>
    rw [run] at h
    subst h
    rfl

theorem toOption_eq_some_iff {result : Except Fault α} {a : α} :
    result.toOption = some a ↔ result = .ok a := by
  cases result <;> simp [Except.toOption]

theorem ok_of_settled_eq_some {x : Action σ α} {s s' : σ} {a : α}
    (h : x.settled s = some (a, s')) : (x s).result = .ok a ∧ (x s).state = s' := by
  cases result : (x s).result with
  | ok b =>
    rw [settled_of_ok result] at h
    cases h
    exact ⟨rfl, rfl⟩
  | error fault =>
    rw [settled_of_error result] at h
    contradiction

@[simp] theorem settled_pure_apply (a : α) (s : σ) :
    (pure a : Action σ α).settled s = some (a, s) := rfl

@[simp] theorem settled_note (entry : Entry) :
    (note entry : Action σ Unit).settled = pure () := rfl

@[simp] theorem settled_emit (event : Event) :
    (emit event : Action σ Unit).settled = pure () := rfl

theorem settled_bind (x : Action σ α) (f : α → Action σ β) :
    (x >>= f).settled = x.settled >>= fun a => (f a).settled := by
  funext s
  change _ = (x.settled s).bind fun p => (f p.1).settled p.2
  cases result : (x s).result with
  | ok a =>
    rw [settled_of_ok result, Option.bind_some]
    cases next : (f a (x s).state).result with
    | ok b =>
      have both : ((x >>= f) s).result = .ok b := by rw [bind_apply_ok f result, next]
      rw [settled_of_ok next, settled_of_ok both, bind_apply_ok f result]
    | error fault =>
      have second : ((x >>= f) s).result = .error fault := by rw [bind_apply_ok f result, next]
      rw [settled_of_error next, settled_of_error second]
  | error fault =>
    have first : ((x >>= f) s).result = .error fault := by rw [bind_apply_error f result]
    rw [settled_of_error result, Option.bind_none, settled_of_error first]

theorem settled_bind_apply (x : Action σ α) (f : α → Action σ β) (s : σ) :
    (x >>= f).settled s = (x.settled s).bind fun p => (f p.1).settled p.2 :=
  congrFun (settled_bind x f) s

theorem settled_forM (xs : List β) (f : β → Action σ Unit) :
    (forM xs f).settled = forM xs fun x => (f x).settled := by
  induction xs with
  | nil => rfl
  | cons x xs ih => simp only [List.forM_cons, settled_bind, ih]

/-- Two actions that settle alike both fail, or both succeed with one result and one state. -/
theorem succeed_or_fail_of_settled_eq {x y : Action σ α} (h : x.settled = y.settled) (s : σ) :
    (∃ a, (x s).result = .ok a ∧ (y s).result = .ok a ∧ (x s).state = (y s).state) ∨
      ∃ fault fault', (x s).result = .error fault ∧ (y s).result = .error fault' := by
  have same := congrFun h s
  cases first : (x s).result with
  | ok a =>
    rw [settled_of_ok first] at same
    cases second : (y s).result with
    | ok b =>
      rw [settled_of_ok second] at same
      injection same with same
      injection same with sameResult sameState
      subst sameResult
      exact .inl ⟨a, rfl, rfl, sameState⟩
    | error fault =>
      rw [settled_of_error second] at same
      contradiction
  | error fault =>
    rw [settled_of_error first] at same
    cases second : (y s).result with
    | ok b =>
      rw [settled_of_ok second] at same
      contradiction
    | error fault' => exact .inr ⟨fault, fault', rfl, rfl⟩

/-! ## What remains beside the journal -/

/-- The result and the state of an action, its journal left out. -/
def unlogged (x : Action σ α) : ExceptT Fault (StateM σ) α := fun s =>
  ((x s).result, (x s).state)

@[simp] theorem unlogged_emit (event : Event) :
    (emit event : Action σ Unit).unlogged = pure () := rfl

theorem unlogged_bind (x : Action σ α) (f : α → Action σ β) :
    (x >>= f).unlogged = x.unlogged >>= fun a => (f a).unlogged := by
  funext s
  cases result : (x s).result with
  | ok a =>
    have first : x.unlogged s = (.ok a, (x s).state) := Prod.ext result rfl
    rw [unlogged, bind_apply_ok f result]
    simp only [bind, ExceptT.bind, ExceptT.mk, StateT.bind, first, ExceptT.bindCont]
    rfl
  | error fault =>
    have first : x.unlogged s = (.error fault, (x s).state) := Prod.ext result rfl
    rw [unlogged, bind_apply_error f result]
    simp only [bind, ExceptT.bind, ExceptT.mk, StateT.bind, first, ExceptT.bindCont]
    rfl

theorem unlogged_forM (xs : List β) (f : β → Action σ Unit) :
    (forM xs f).unlogged = forM xs fun x => (f x).unlogged := by
  induction xs with
  | nil => rfl
  | cons x xs ih => simp only [List.forM_cons, unlogged_bind, ih]

/-! ## Which part wrote an entry -/

theorem journal_ofExcept (result : Except Fault α) (s : σ) :
    (ofExcept result s).journal = [] := by
  cases result <;> rfl

theorem state_ofExcept (result : Except Fault α) (s : σ) : (ofExcept result s).state = s := by
  cases result <;> rfl

theorem journal_change (f : σ → Except Fault σ) (s : σ) : (change f s).journal = [] := by
  unfold change
  cases f s <;> rfl

theorem exchange_not_mem_emitIf {condition : Bool} {event : Event} {exchange : Exchange} {s : σ} :
    .exchange exchange ∉ (emitIf condition event s).journal := by
  cases condition with
  | true => simp [emitIf, emit, note]
  | false => simp [emitIf]

theorem mem_journal_bind {x : Action σ α} {f : α → Action σ β} {s : σ} {entry : Entry}
    (h : entry ∈ ((x >>= f) s).journal) :
    entry ∈ (x s).journal ∨
      ∃ a, (x s).result = .ok a ∧ entry ∈ (f a (x s).state).journal := by
  cases result : (x s).result with
  | ok a =>
    rw [bind_apply_ok f result] at h
    rcases List.mem_append.mp h with mem | mem
    · exact .inl mem
    · exact .inr ⟨a, rfl, mem⟩
  | error fault =>
    rw [bind_apply_error f result] at h
    exact .inl h

/-- An entry in the journal of a loop was written by the round of one of its items, after all rounds
before it. The state at the end is the one after that round and the rounds of `rest`, the items
after it up to the first whose round failed. -/
theorem round_of_mem_journal {xs : List β} {f : β → Action σ Unit} {s : σ} {entry : Entry}
    (h : entry ∈ (forM xs f s).journal) :
    ∃ before x after rest, xs = before ++ x :: after ∧ rest <+: after ∧
      entry ∈ (f x (forM before f s).state).journal ∧
      (forM xs f s).state = (forM rest f (f x (forM before f s).state).state).state := by
  induction xs generalizing s with
  | nil => simp at h
  | cons x xs ih =>
    rw [List.forM_cons] at h ⊢
    rcases mem_journal_bind h with mem | ⟨_, ok, mem⟩
    · cases result : (f x s).result with
      | ok a =>
        refine ⟨[], x, xs, xs, rfl, List.prefix_rfl, mem, ?_⟩
        rw [bind_apply_ok _ result]
        rfl
      | error fault =>
        refine ⟨[], x, xs, [], rfl, List.nil_prefix, mem, ?_⟩
        rw [bind_apply_error _ result]
        rfl
    · obtain ⟨before, y, after, rest, split, part, written, state⟩ := ih mem
      refine ⟨x :: before, y, after, rest, by rw [split]; rfl, part, ?_⟩
      rw [List.forM_cons, bind_apply_ok _ ok, bind_apply_ok _ ok]
      exact ⟨written, state⟩

/-- An entry in the journal of two actions in a row was written by the first, or else by the second
after all that the first wrote. -/
theorem journal_bind_eq_append_cons {x : Action σ α} {f : α → Action σ β} {s : σ}
    {earlier later : List Entry} {entry : Entry}
    (h : ((x >>= f) s).journal = earlier ++ entry :: later) :
    (∃ rest, (x s).journal = earlier ++ entry :: rest) ∨
      ∃ a own, (x s).result = .ok a ∧ earlier = (x s).journal ++ own ∧
        (f a (x s).state).journal = own ++ entry :: later := by
  cases result : (x s).result with
  | ok a =>
    rw [bind_apply_ok f result] at h
    rcases List.append_eq_append_iff.mp h with ⟨own, before, written⟩ | ⟨rest, before, after⟩
    · exact .inr ⟨a, own, rfl, before, written⟩
    · rcases List.cons_eq_append_iff.mp after with ⟨rfl, written⟩ | ⟨rest', rfl, -⟩
      · rw [List.append_nil] at before
        exact .inr ⟨a, [], rfl, by rw [before, List.append_nil], by rw [written, List.nil_append]⟩
      · exact .inl ⟨rest', before⟩
  | error fault =>
    rw [bind_apply_error f result] at h
    exact .inl ⟨later, h⟩

/-- An entry in the journal of a loop was written by the round of one of its items, after all that
the rounds before it wrote. -/
theorem journal_forM_eq_append_cons {xs : List β} {f : β → Action σ Unit} {s : σ}
    {earlier later : List Entry} {entry : Entry}
    (h : (forM xs f s).journal = earlier ++ entry :: later) :
    ∃ before x after own rest, xs = before ++ x :: after ∧
      earlier = (forM before f s).journal ++ own ∧
      (f x (forM before f s).state).journal = own ++ entry :: rest := by
  induction xs generalizing s earlier with
  | nil => simp at h
  | cons x xs ih =>
    rw [List.forM_cons] at h
    rcases journal_bind_eq_append_cons h with ⟨rest, written⟩ | ⟨_, own, ok, before, written⟩
    · exact ⟨[], x, xs, earlier, rest, rfl, rfl, written⟩
    · obtain ⟨items, y, after, own', rest, rfl, rfl, written'⟩ := ih written
      refine ⟨x :: items, y, after, own', rest, rfl, ?_, ?_⟩
      · rw [before, List.forM_cons, bind_apply_ok _ ok, List.append_assoc]
      · rw [List.forM_cons, bind_apply_ok _ ok]
        exact written'

/-! ## Counting -/

theorem state_counting (x : Action (Counted σ) Unit) (s : σ) :
    (counting x s).state = (x ⟨s, 0⟩).state.state := by
  unfold counting
  rcases x ⟨s, 0⟩ with ⟨_ | _, _, _⟩ <;> rfl

theorem journal_counting (x : Action (Counted σ) Unit) (s : σ) :
    (counting x s).journal = (x ⟨s, 0⟩).journal := by
  unfold counting
  rcases x ⟨s, 0⟩ with ⟨_ | _, _, _⟩ <;> rfl

theorem result_counting (x : Action (Counted σ) Unit) (s : σ) :
    (counting x s).result = (x ⟨s, 0⟩).result.map fun _ => (x ⟨s, 0⟩).state.count := by
  unfold counting
  rcases x ⟨s, 0⟩ with ⟨_ | _, _, _⟩ <;> rfl

theorem settled_counting (x : Action (Counted σ) Unit) (s : σ) :
    (counting x).settled s = (x.settled ⟨s, 0⟩).map fun p => (p.2.count, p.2.state) := by
  have counted := result_counting x s
  cases result : (x ⟨s, 0⟩).result with
  | ok a =>
    rw [result] at counted
    rw [settled_of_ok counted, settled_of_ok result, state_counting]
    rfl
  | error fault =>
    rw [result] at counted
    rw [settled_of_error counted, settled_of_error result, Option.map_none]

end Metrology.Action

namespace Metrology.Outcome

theorem mem_exchanges {σ α : Type} {outcome : Outcome σ α} {exchange : Exchange} :
    exchange ∈ outcome.exchanges ↔ .exchange exchange ∈ outcome.journal := by
  rw [exchanges, List.mem_filterMap]
  constructor
  · rintro ⟨entry, mem, held⟩
    cases entry with
    | exchange exchange' =>
      obtain rfl := Option.some.inj held
      exact mem
    | event shown => contradiction
    | remark body => contradiction
  · exact fun mem => ⟨_, mem, rfl⟩

end Metrology.Outcome
