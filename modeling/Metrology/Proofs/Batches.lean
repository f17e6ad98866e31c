import Mathlib.Data.List.Flatten
import Metrology.Proofs.Growth
import Metrology.Proofs.Runs

/-! # Batches of measures

A batch is a list of measures on the way to their slots. Stored as a whole it fails if one of its
measures can not be stored; in which order they come does not matter. Many actions come to no more
than storing a batch.
-/

namespace Metrology

open Metrology.Action

variable {catalog : Catalog}

namespace Store

/-- The store with one more measure, if it can be stored. -/
def add? (store : Store catalog) (entry : Slot × Measure) : Option (Store catalog) :=
  (store.add entry.1.component entry.1.metric entry.2).toOption

/-- The store with all measures of a batch, if they can be stored. -/
def addAll (store : Store catalog) (batch : List (Slot × Measure)) : Option (Store catalog) :=
  batch.foldlM add? store

theorem add?_eq_some_iff {store after : Store catalog} {entry : Slot × Measure} :
    store.add? entry = some after ↔
      store.add entry.1.component entry.1.metric entry.2 = .ok after :=
  toOption_eq_some_iff

/-- Of two measures that are stored the second could come first. -/
theorem add?_swap {store between after : Store catalog} {entry entry' : Slot × Measure}
    (first : store.add? entry = some between) (second : between.add? entry' = some after) :
    ∃ between', store.add? entry' = some between' ∧ between'.add? entry = some after := by
  simp only [add?_eq_some_iff, add_eq_ok_iff] at first second ⊢
  obtain ⟨admits, free, rfl⟩ := first
  obtain ⟨admits', free', rfl⟩ := second
  rw [find?_put] at free'
  split at free'
  · contradiction
  · rename_i apart
    refine ⟨_, ⟨admits', free', rfl⟩, admits, ?_, ?_⟩
    · rw [find?_put, if_neg fun same => apart ⟨same.1.symm, same.2.symm⟩, free]
    · apply ext_find?
      intro component metric
      rw [find?_put, find?_put, find?_put, find?_put]
      split
      · rename_i same
        rw [if_neg]
        rintro ⟨same', same''⟩
        exact apart ⟨same.1.symm.trans same', same.2.symm.trans same''⟩
      · rfl

theorem add?_comm (store : Store catalog) (entry entry' : Slot × Measure) :
    ((store.add? entry).bind fun between => between.add? entry') =
      (store.add? entry').bind fun between => between.add? entry := by
  ext after
  simp only [Option.bind_eq_some_iff]
  constructor
  · rintro ⟨between, first, second⟩
    exact add?_swap first second
  · rintro ⟨between, first, second⟩
    exact add?_swap first second

theorem addAll_cons (store : Store catalog) (entry : Slot × Measure)
    (batch : List (Slot × Measure)) :
    store.addAll (entry :: batch) = (store.add? entry).bind fun next => next.addAll batch :=
  List.foldlM_cons ..

theorem addAll_append (store : Store catalog) (batch batch' : List (Slot × Measure)) :
    store.addAll (batch ++ batch') = (store.addAll batch).bind fun next => next.addAll batch' :=
  List.foldlM_append ..

/-- The order of a batch does not matter. -/
theorem addAll_eq_of_perm {batch batch' : List (Slot × Measure)} (perm : batch.Perm batch')
    (store : Store catalog) : store.addAll batch = store.addAll batch' := by
  induction perm generalizing store with
  | nil => rfl
  | cons entry _ ih => simp only [addAll_cons, ih]
  | swap entry entry' batch =>
    simp only [addAll_cons, ← Option.bind_assoc, add?_comm store entry entry']
  | trans _ _ ih ih' => rw [ih, ih']

theorem size_of_addAll {store after : Store catalog} {batch : List (Slot × Measure)}
    (h : store.addAll batch = some after) : after.size = store.size + batch.length := by
  induction batch generalizing store with
  | nil =>
    cases h
    rfl
  | cons entry batch ih =>
    rw [addAll_cons] at h
    obtain ⟨next, stored, rest⟩ := Option.bind_eq_some_iff.mp h
    rw [ih rest, size_of_add (add?_eq_some_iff.mp stored), List.length_cons, Nat.add_assoc,
      Nat.add_comm 1]

/-- What is held stays where it is held when a batch is stored. -/
theorem find?_eq_some_of_addAll {store after : Store catalog} {batch : List (Slot × Measure)}
    (h : store.addAll batch = some after) {component metric : String} {measure : Measure}
    (held : store.find? component metric = some measure) :
    after.find? component metric = some measure := by
  induction batch generalizing store with
  | nil =>
    cases h
    exact held
  | cons entry batch ih =>
    rw [addAll_cons] at h
    obtain ⟨next, stored, rest⟩ := Option.bind_eq_some_iff.mp h
    have grows : GrowsIn (fun _ _ => True) store next :=
      GrowsIn.of_add (add?_eq_some_iff.mp stored) trivial
    exact ih rest (grows.kept held)

/-- A batch that is stored is what the store gains by it, each slot of it once. -/
theorem gained_of_addAll {store after : Store catalog} {batch : List (Slot × Measure)}
    (h : store.addAll batch = some after) :
    (batch.map Prod.fst).Nodup ∧ ∀ slot measure, (slot, measure) ∈ batch ↔
      store.find? slot.component slot.metric = none ∧
        after.find? slot.component slot.metric = some measure := by
  induction batch generalizing store with
  | nil =>
    cases h
    refine ⟨List.nodup_nil, fun slot measure => ⟨fun mem => absurd mem List.not_mem_nil, ?_⟩⟩
    rintro ⟨absent, present⟩
    rw [absent] at present
    contradiction
  | cons entry batch ih =>
    obtain ⟨own, measure⟩ := entry
    rw [addAll_cons] at h
    obtain ⟨next, stored, rest⟩ := Option.bind_eq_some_iff.mp h
    replace stored := add?_eq_some_iff.mp stored
    obtain ⟨-, free, -⟩ := add_eq_ok_iff.mp stored
    obtain ⟨nodup, gains⟩ := ih rest
    have here : next.find? own.component own.metric = some measure := by
      rw [find?_of_add stored, if_pos ⟨rfl, rfl⟩]
    have there : ∀ slot : Slot, slot ≠ own → next.find? slot.component slot.metric =
        store.find? slot.component slot.metric := by
      intro slot apart
      rw [find?_of_add stored, if_neg]
      rintro ⟨sameComponent, sameMetric⟩
      cases slot
      cases own
      exact apart (congrArg₂ Slot.mk sameComponent sameMetric)
    constructor
    · refine List.nodup_cons.mpr ⟨fun again => ?_, nodup⟩
      obtain ⟨⟨slot, later⟩, mem, rfl⟩ := List.mem_map.mp again
      rw [((gains slot later).mp mem).1] at here
      contradiction
    · intro slot measure'
      by_cases same : slot = own
      · subst same
        have final := find?_eq_some_of_addAll rest here
        constructor
        · intro mem
          rcases List.mem_cons.mp mem with first | mem
          · cases first
            exact ⟨free, final⟩
          · rw [((gains slot measure').mp mem).1] at here
            contradiction
        · rintro ⟨-, present⟩
          rw [final] at present
          cases present
          exact List.mem_cons_self
      · rw [← there slot same, ← gains slot measure']
        simp [same]

/-- After a batch was stored the store holds what it held and the measures of the batch. -/
theorem find?_eq_some_iff_of_addAll {store after : Store catalog} {batch : List (Slot × Measure)}
    (h : store.addAll batch = some after) {component metric : String} {measure : Measure} :
    after.find? component metric = some measure ↔
      store.find? component metric = some measure ∨ (⟨component, metric⟩, measure) ∈ batch := by
  have gains := (gained_of_addAll h).2 ⟨component, metric⟩ measure
  constructor
  · intro held
    cases before : store.find? component metric with
    | none => exact .inr (gains.mpr ⟨before, held⟩)
    | some measure' => exact .inl ((find?_eq_some_of_addAll h before).symm.trans held)
  · rintro (held | mem)
    · exact find?_eq_some_of_addAll h held
    · exact (gains.mp mem).2

end Store

/-! ## Batches in parts -/

section Parts

variable {α β γ : Type}

theorem mapM_congr_of_mem {xs : List α} {f g : α → Option β} (same : ∀ x ∈ xs, f x = g x) :
    xs.mapM f = xs.mapM g := by
  induction xs with
  | nil => rfl
  | cons x xs ih =>
    rw [List.mapM_cons, List.mapM_cons, same x List.mem_cons_self,
      ih fun y mem => same y (List.mem_cons_of_mem _ mem)]

theorem toOption_mapM (xs : List α) (f : α → Except Fault β) :
    (xs.mapM f).toOption = xs.mapM fun x => (f x).toOption := by
  induction xs with
  | nil => rfl
  | cons x xs ih =>
    rw [List.mapM_cons, List.mapM_cons, ← ih]
    cases f x with
    | error fault => rfl
    | ok y => cases xs.mapM f <;> rfl

theorem mapM_eq_some_map {xs : List α} {f : α → Option β} {g : α → β}
    (each : ∀ x ∈ xs, f x = some (g x)) : xs.mapM f = some (xs.map g) := by
  induction xs with
  | nil => rfl
  | cons x xs ih =>
    rw [List.mapM_cons, each x List.mem_cons_self,
      ih fun y mem => each y (List.mem_cons_of_mem _ mem)]
    rfl

theorem mapM_eq_none_iff {xs : List α} {f : α → Option β} :
    xs.mapM f = none ↔ ∃ x ∈ xs, f x = none := by
  induction xs with
  | nil => simp
  | cons x xs ih =>
    rw [List.mapM_cons]
    cases first : f x with
    | none => simp [first]
    | some y => cases rest : xs.mapM f <;> simp [first, ← ih, rest]

/-- Where all values are there they are those of a function. -/
theorem exists_map_of_mapM_eq_some (default : α → β) {xs : List α} {ys : List β}
    {f : α → Option β} (h : xs.mapM f = some ys) :
    ∃ g : α → β, ys = xs.map g ∧ ∀ x ∈ xs, f x = some (g x) := by
  have each : ∀ x ∈ xs, f x = some ((f x).getD (default x)) := by
    intro x mem
    cases value : f x with
    | none =>
      rw [mapM_eq_none_iff.mpr ⟨x, mem, value⟩] at h
      contradiction
    | some y => rfl
  rw [mapM_eq_some_map each] at h
  exact ⟨_, (Option.some.inj h).symm, each⟩

theorem mapM_bind_of_some {xs : List α} {f : α → Option β} {g : α → β}
    (each : ∀ x ∈ xs, f x = some (g x)) (next : α → β → Option γ) :
    (xs.mapM fun x => (f x).bind (next x)) = xs.mapM fun x => next x (g x) :=
  mapM_congr_of_mem fun x mem => by rw [each x mem, Option.bind_some]

theorem mapM_bind_of_none {xs : List α} {f : α → Option β} (missing : xs.mapM f = none)
    (next : α → β → Option γ) : (xs.mapM fun x => (f x).bind (next x)) = none := by
  obtain ⟨x, mem, none⟩ := mapM_eq_none_iff.mp missing
  exact mapM_eq_none_iff.mpr ⟨x, mem, by rw [none, Option.bind_none]⟩

/-- The parts of all items put together, if none is missing. -/
def collect (xs : List α) (part : α → Option (List β)) : Option (List β) :=
  (xs.mapM part).map List.flatten

theorem collect_eq_some {xs : List α} {part : α → Option (List β)} {g : α → List β}
    (each : ∀ x ∈ xs, part x = some (g x)) : collect xs part = some (xs.flatMap g) := by
  rw [collect, mapM_eq_some_map each, Option.map_some, List.flatMap_def]

theorem collect_eq_none {xs : List α} {part : α → Option (List β)} {x : α} (mem : x ∈ xs)
    (missing : part x = none) : collect xs part = none := by
  rw [collect, mapM_eq_none_iff.mpr ⟨x, mem, missing⟩, Option.map_none]

theorem collect_cons (x : α) (xs : List α) (part : α → Option (List β)) :
    collect (x :: xs) part = do return (← part x) ++ (← collect xs part) := by
  rw [collect, collect, List.mapM_cons]
  cases part x with
  | none => rfl
  | some _ => cases xs.mapM part <;> rfl

theorem mem_of_collect {xs : List α} {part : α → Option (List β)} {ys : List β} {y : β}
    (h : collect xs part = some ys) (mem : y ∈ ys) :
    ∃ x ∈ xs, ∃ own, part x = some own ∧ y ∈ own := by
  induction xs generalizing ys with
  | nil =>
    cases h
    contradiction
  | cons x xs ih =>
    rw [collect_cons] at h
    obtain ⟨own, first, h⟩ := Option.bind_eq_some_iff.mp h
    obtain ⟨rest, others, h⟩ := Option.bind_eq_some_iff.mp h
    cases h
    rcases List.mem_append.mp mem with mem | mem
    · exact ⟨x, List.mem_cons_self, own, first, mem⟩
    · obtain ⟨x', mem', found⟩ := ih others mem
      exact ⟨x', List.mem_cons_of_mem _ mem', found⟩

theorem subset_of_collect {xs : List α} {part : α → Option (List β)} {ys : List β} {x : α}
    (h : collect xs part = some ys) (mem : x ∈ xs) : ∃ own, part x = some own ∧ own ⊆ ys := by
  induction xs generalizing ys with
  | nil => contradiction
  | cons x' xs ih =>
    rw [collect_cons] at h
    obtain ⟨own, first, h⟩ := Option.bind_eq_some_iff.mp h
    obtain ⟨rest, others, h⟩ := Option.bind_eq_some_iff.mp h
    cases h
    rcases List.mem_cons.mp mem with rfl | mem
    · exact ⟨own, first, List.subset_append_left own rest⟩
    · obtain ⟨own', there, subset⟩ := ih others mem
      exact ⟨own', there, List.subset_append_of_subset_right own subset⟩

theorem collect_singleton (x : α) (part : α → Option (List β)) : collect [x] part = part x := by
  rw [collect_cons]
  cases part x <;> simp [collect]

theorem collect_append (xs ys : List α) (part : α → Option (List β)) :
    collect (xs ++ ys) part = do return (← collect xs part) ++ (← collect ys part) := by
  rw [collect, collect, collect, List.mapM_append]
  cases xs.mapM part with
  | none => rfl
  | some _ => cases ys.mapM part <;> simp

theorem flatMap_flatMap_perm (xs : List α) (ys : List β) (f : α → β → List γ) :
    (xs.flatMap fun x => ys.flatMap (f x)).Perm
      (ys.flatMap fun y => xs.flatMap fun x => f x y) := by
  induction xs with
  | nil => simp
  | cons x xs ih =>
    simp only [List.flatMap_cons]
    exact (ih.append_left _).trans (List.flatMap_append_perm ..)

/-- Parts that belong to two items each can be put together in two ways. These give the same up to
the order, and nothing if a part is missing. -/
theorem collect_interchange (xs : List α) (ys : List β) (part : α → β → Option (List γ)) :
    Option.Rel List.Perm (collect xs fun x => collect ys (part x))
      (collect ys fun y => collect xs fun x => part x y) := by
  by_cases missing : ∃ x ∈ xs, ∃ y ∈ ys, part x y = none
  · obtain ⟨x, mem, y, mem', none⟩ := missing
    rw [collect_eq_none mem (collect_eq_none mem' none),
      collect_eq_none mem' (collect_eq_none mem none)]
    exact .none
  · have there : ∀ x ∈ xs, ∀ y ∈ ys, part x y = some ((part x y).getD []) := by
      intro x mem y mem'
      obtain ⟨entries, same⟩ := Option.ne_none_iff_exists'.mp fun none =>
        missing ⟨x, mem, y, mem', none⟩
      rw [same, Option.getD_some]
    rw [collect_eq_some fun x mem => collect_eq_some (there x mem),
      collect_eq_some fun y mem => collect_eq_some fun x mem' => there x mem' y mem]
    exact .some (flatMap_flatMap_perm ..)

end Parts

/-! ## Storing a batch -/

section Storing

variable {α β : Type}

/-- Stores a batch, counts its measures and gives a result. It fails if the batch or the result is
missing. -/
def storing (batch : Option (List (Slot × Measure))) (result : Option α) :
    StateT (Counted (Store catalog)) Option α := fun s => do
  let batch ← batch
  let a ← result
  let after ← s.state.addAll batch
  return (a, ⟨after, s.count + batch.length⟩)

@[simp] theorem storing_none (batch : Option (List (Slot × Measure)))
    (s : Counted (Store catalog)) : storing batch (none : Option α) s = none := by
  cases batch <;> rfl

/-- What is needed to go on may be missing. -/
theorem settled_bind_ofExcept {result : Except Fault α}
    {f : α → Action (Counted (Store catalog)) β} {batch : Option (List (Slot × Measure))}
    {result' : Option β} {s : Counted (Store catalog)}
    (next : ∀ a, result.toOption = some a → (f a).settled s = storing batch result' s)
    (missing : result.toOption = none → result' = none) :
    (ofExcept result >>= f).settled s = storing batch result' s := by
  cases result with
  | ok a => exact next a rfl
  | error fault =>
    rw [missing rfl, storing_none]
    rfl

/-- A result that is there with the batch can be replaced. -/
theorem settled_bind_pure {x : Action (Counted (Store catalog)) α}
    {batch : Option (List (Slot × Measure))} {result : Option α} {s : Counted (Store catalog)}
    (first : x.settled s = storing batch result s) (missing : result = none → batch = none)
    (b : β) : (x >>= fun _ => pure b).settled s = storing batch (some b) s := by
  rw [settled_bind_apply, first]
  cases batch with
  | none => rfl
  | some entries =>
    cases result with
    | none => exact absurd (missing rfl) (by simp)
    | some a => cases stored : s.state.addAll entries <;> simp [storing, stored]

/-- A batch may depend on a result that can fail. -/
theorem settled_bind_ofExcept_storing {result : Except Fault α}
    {f : α → Action (Counted (Store catalog)) β} {batch : α → Option (List (Slot × Measure))}
    {result' : Option β} {s : Counted (Store catalog)}
    (next : ∀ a, result = .ok a → (f a).settled s = storing (batch a) result' s) :
    (ofExcept result >>= f).settled s = storing (result.toOption >>= batch) result' s := by
  cases result with
  | ok a => exact next a rfl
  | error fault => rfl

theorem storing_append {batch batch' : Option (List (Slot × Measure))} {result : Option α}
    {result' : Option β} (missing : result = none → result' = none)
    (s : Counted (Store catalog)) :
    storing (do return (← batch) ++ (← batch')) result' s =
      (storing batch result s).bind fun p => storing batch' result' p.2 := by
  cases batch with
  | none => rfl
  | some entries =>
    cases result with
    | none =>
      rw [missing rfl]
      cases batch' <;> rfl
    | some a =>
      cases stored : s.state.addAll entries <;> cases batch' <;> cases result' <;>
        simp [storing, stored, Store.addAll_append, Nat.add_assoc]

/-- An action that comes to storing a batch, followed by another, comes to storing both batches. -/
theorem settled_bind_storing {x : Action (Counted (Store catalog)) α}
    {f : α → Action (Counted (Store catalog)) β} {s : Counted (Store catalog)}
    {batch batch' : Option (List (Slot × Measure))} {result : Option α} {result' : Option β}
    (first : x.settled s = storing batch result s)
    (next : ∀ a, result = some a →
      (f a).settled (x s).state = storing batch' result' (x s).state)
    (missing : result = none → result' = none) :
    (x >>= f).settled s = storing (do return (← batch) ++ (← batch')) result' s := by
  rw [settled_bind_apply, storing_append missing, ← first]
  refine Option.bind_congr fun ⟨a, s'⟩ settles => ?_
  obtain ⟨-, rfl⟩ := ok_of_settled_eq_some settles
  rw [first] at settles
  obtain ⟨_, _, stored⟩ := Option.bind_eq_some_iff.mp settles
  obtain ⟨_, there, stored⟩ := Option.bind_eq_some_iff.mp stored
  obtain ⟨_, _, stored⟩ := Option.bind_eq_some_iff.mp stored
  obtain ⟨rfl, -⟩ := Prod.mk.inj (Option.some.inj stored)
  exact next _ there

theorem settled_forM_storing {xs : List α} {f : α → Action (Counted (Store catalog)) Unit}
    {part : α → Option (List (Slot × Measure))}
    (each : ∀ x ∈ xs, ∀ s, (f x).settled s = storing (part x) (some ()) s)
    (s : Counted (Store catalog)) :
    (forM xs f).settled s = storing (collect xs part) (some ()) s := by
  induction xs generalizing s with
  | nil => rfl
  | cons x xs ih =>
    rw [List.forM_cons, collect_cons]
    refine settled_bind_storing (each x List.mem_cons_self s) (fun _ _ => ?_) (by simp)
    exact ih (fun y mem => each y (List.mem_cons_of_mem _ mem)) _

/-- Stores a batch, unless it is missing, and gives the number of its measures. -/
def storingNumbered (batch : Option (List (Slot × Measure))) :
    StateT (Store catalog) Option Nat := fun store => do
  let batch ← batch
  let after ← store.addAll batch
  return (batch.length, after)

theorem settled_counting_storing {x : Action (Counted (Store catalog)) Unit}
    {batch : Option (List (Slot × Measure))} {store : Store catalog}
    (stores : x.settled ⟨store, 0⟩ = storing batch (some ()) ⟨store, 0⟩) :
    (counting x).settled store = storingNumbered batch store := by
  rw [settled_counting, stores]
  cases batch with
  | none => rfl
  | some entries =>
    cases stored : store.addAll entries <;> simp [storing, storingNumbered, stored]

/-- Two actions that come to storing batches come to storing both, with as many measures as the two
have together. -/
theorem settled_bind_storingNumbered {x y : Action (Store catalog) Nat}
    {batch batch' : Option (List (Slot × Measure))} {store : Store catalog}
    (first : x.settled store = storingNumbered batch store)
    (second : y.settled (x store).state = storingNumbered batch' (x store).state) :
    (x >>= fun number => y >>= fun number' => pure (number + number')).settled store =
      storingNumbered (do return (← batch) ++ (← batch')) store := by
  rw [settled_bind_apply, first]
  cases batch with
  | none => rfl
  | some entries =>
    cases stored : store.addAll entries with
    | none => cases batch' <;> simp [storingNumbered, stored, Store.addAll_append]
    | some after =>
      have settles : x.settled store = some (entries.length, after) := by
        rw [first]
        simp [storingNumbered, stored]
      rw [(ok_of_settled_eq_some settles).2] at second
      have rest : storingNumbered (some entries) store = some (entries.length, after) :=
        first.symm.trans settles
      rw [rest, Option.bind_some, settled_bind_apply, second]
      cases batch' with
      | none => rfl
      | some entries' =>
        cases stored' : after.addAll entries' <;>
          simp [storingNumbered, stored, stored', Store.addAll_append]

theorem storingNumbered_congr {batch batch' : Option (List (Slot × Measure))}
    (same : Option.Rel List.Perm batch batch') (store : Store catalog) :
    storingNumbered batch store = storingNumbered batch' store := by
  cases same with
  | none => rfl
  | @some batch batch' perm =>
    change (store.addAll batch).bind (fun after => some (batch.length, after)) =
      (store.addAll batch').bind fun after => some (batch'.length, after)
    rw [Store.addAll_eq_of_perm perm, perm.length_eq]

end Storing

end Metrology
