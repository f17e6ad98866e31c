import Metrology.Proofs.Aggregation.Fusion
import Metrology.Proofs.PathCrawls

/-! # Runs of formulas that fail

A run of formulas that fails breaks off at one component. Those it has visited before, and which a
crawl from the leaves up visits before this one, have stored all that their counters make; the
component itself has stored what came before the failure, and nothing else is stored.
-/

namespace Metrology

/-! ## From the leaves up -/

namespace Component

theorem mem_descendants_trans {c d e : Component} (mem : d ∈ c.preorder)
    (below : e ∈ d.descendants) : e ∈ c.descendants := by
  induction c with
  | node profile children ih =>
    rcases mem_preorder_iff.mp mem with rfl | mem
    · exact below
    · obtain ⟨child, isChild, mem⟩ := mem_descendants_iff.mp mem
      exact mem_descendants_iff.mpr
        ⟨child, isChild, mem_preorder_iff.mpr (.inr (ih child isChild mem))⟩

theorem mem_preorder_of_mem_visitedUp {limit : DepthLimit} {c d : Component}
    (mem : d ∈ c.visitedUp limit) : d ∈ c.preorder := by
  induction c with
  | node profile children ih =>
    by_cases allowed : limit.Allows (node profile children).kind
    · rw [visitedUp_eq_append allowed] at mem
      rcases List.mem_append.mp mem with mem | mem
      · obtain ⟨child, isChild, mem⟩ := List.mem_flatMap.mp mem
        exact mem_preorder_iff.mpr (.inr (mem_descendants_iff.mpr
          ⟨child, isChild, ih child isChild mem⟩))
      · exact mem_preorder_iff.mpr (.inl (List.mem_singleton.mp mem))
    · rw [visitedUp_eq_nil allowed] at mem
      contradiction

theorem not_mem_own_descendants {c d : Component} (nodup : c.preorder.Nodup)
    (mem : d ∈ c.preorder) : d ∉ d.descendants := by
  induction c with
  | node profile children ih =>
    rw [preorder, preorderAll_eq_flatMap, List.nodup_cons, List.nodup_flatMap] at nodup
    obtain ⟨fresh, each, -⟩ := nodup
    rcases mem_preorder_iff.mp mem with rfl | mem
    · rwa [descendants, preorderAll_eq_flatMap]
    · obtain ⟨child, isChild, mem⟩ := mem_descendants_iff.mp mem
      exact ih child isChild (each child isChild) mem

/-- From the leaves up no component is visited twice, and none before one that stands below it. -/
theorem pairwise_visitedUp (limit : DepthLimit) {c : Component} (nodup : c.preorder.Nodup) :
    (c.visitedUp limit).Pairwise fun earlier later =>
      later ≠ earlier ∧ later ∉ earlier.descendants := by
  induction c with
  | node profile children ih =>
    by_cases allowed : limit.Allows (node profile children).kind
    · rw [preorder, preorderAll_eq_flatMap, List.nodup_cons, List.nodup_flatMap] at nodup
      obtain ⟨fresh, each, disjoint⟩ := nodup
      rw [visitedUp_eq_append allowed, List.pairwise_append, List.pairwise_flatMap]
      refine ⟨⟨fun child mem => ih child mem (each child mem), ?_⟩, List.pairwise_singleton .., ?_⟩
      · refine disjoint.imp fun {first second} apart earlier mem later mem' => ?_
        have there := mem_preorder_of_mem_visitedUp mem'
        constructor
        · rintro rfl
          exact apart (mem_preorder_of_mem_visitedUp mem) there
        · intro below
          have here := mem_descendants_trans (mem_preorder_of_mem_visitedUp mem) below
          exact apart (mem_preorder_iff.mpr (.inr here)) there
      · intro earlier mem later isLast
        obtain rfl := List.mem_singleton.mp isLast
        obtain ⟨child, isChild, mem⟩ := List.mem_flatMap.mp mem
        have here := mem_preorder_of_mem_visitedUp mem
        refine ⟨fun same => fresh (List.mem_flatMap.mpr ⟨child, isChild, same ▸ here⟩), ?_⟩
        intro below
        have there := mem_descendants_trans here below
        exact fresh (List.mem_flatMap.mpr ⟨child, isChild, mem_preorder_iff.mpr (.inr there)⟩)
    · rw [visitedUp_eq_nil allowed]
      exact .nil

end Component

/-- Of the components of a tree those are no longer or not yet visited that come later, that stand
above the last one visited, or that are out of reach. -/
theorem ComponentTree.key_ne_of_visitedUp (tree : ComponentTree) {limit : DepthLimit}
    {done rest : List Component} {c d : Component}
    (order : tree.root.visitedUp limit = done ++ c :: rest) (mem : d ∈ tree.components)
    (untouched : d ∈ rest ∨ c ∈ d.descendants ∨ d ∉ tree.root.visitedUp limit) :
    ∀ v ∈ done ++ [c], v.key ≠ d.key := by
  intro v isVisited same
  have visited : v ∈ tree.root.visitedUp limit := by
    rw [order, List.append_cons]
    exact List.mem_append_left _ isVisited
  obtain rfl := tree.eq_of_key_eq (Component.mem_preorder_of_mem_visitedUp visited) mem same
  have nodup : tree.root.preorder.Nodup := tree.nodup_keys.of_map _
  have apart := Component.pairwise_visitedUp limit nodup
  rw [order, List.pairwise_append, List.pairwise_cons] at apart
  obtain ⟨-, ⟨last, -⟩, across⟩ := apart
  rw [List.mem_append, List.mem_singleton] at isVisited
  rcases untouched with later | above | unvisited
  · rcases isVisited with earlier | rfl
    · exact (across v earlier v (List.mem_cons_of_mem _ later)).1 rfl
    · exact (last v later).1 rfl
  · rcases isVisited with earlier | rfl
    · exact (across v earlier c List.mem_cons_self).2 above
    · exact Component.not_mem_own_descendants nodup mem above
  · exact unvisited visited

namespace Formula

open Metrology.Action Store Component

variable {κ : Type} {catalog : Catalog}

/-! ## Attempts -/

/-- A formula with its counter at a component, about to make a measure for one of its outputs. -/
structure Attempt (κ : Type) where
  formula : Formula κ
  counter : κ
  key : String

/-- The attempts at a component, formula by formula. -/
def attempts (formulas : List (Formula κ)) (counters : List κ) : List (Attempt κ) :=
  (formulas.zip counters).flatMap fun (formula, counter) =>
    formula.outputs.map fun key => ⟨formula, counter, key⟩

namespace Attempt

/-- What is made at a component, unless the attempt fails. -/
def made (catalog : Catalog) (c : Component) (a : Attempt κ) : Option (List (Slot × Measure)) :=
  Formula.made catalog c a.formula a.counter a.key

def run (traced : Bool) (c : Component) (a : Attempt κ) : Action (Counted (Store catalog)) Unit :=
  storeOutput traced c a.formula a.counter a.key

/-- The ways in which an attempt fails. -/
inductive Fails (c : Component) (store : Store catalog) (fault : Fault) (a : Attempt κ) : Prop
  | unknown (missing : catalog.get a.key = .error fault)
  | unmade {metric : Metric} (known : catalog.get a.key = .ok metric)
      (failed : a.formula.measure? a.counter c metric = .error fault)
  | unstored {metric : Metric} {measure : Measure} (known : catalog.get a.key = .ok metric)
      (makes : a.formula.measure? a.counter c metric = .ok (some measure))
      (refused : store.add c.key a.key measure = .error fault)

end Attempt

/-- What attempts at a component store, and how they end: with all measures stored, or with those
stored that come before an attempt that fails. -/
inductive Attempted (c : Component) (before : Store catalog) (as : List (Attempt κ))
    (own : List (Slot × Measure)) (after : Store catalog) : Except Fault Unit → Prop
  | all (made : collect as (Attempt.made catalog c) = some own)
      (stored : before.addAll own = some after) : Attempted c before as own after (.ok ())
  | broken {earlier later : List (Attempt κ)} {a : Attempt κ} {fault : Fault}
      (split : as = earlier ++ a :: later)
      (made : collect earlier (Attempt.made catalog c) = some own)
      (stored : before.addAll own = some after) (fails : a.Fails c after fault) :
      Attempted c before as own after (.error fault)

theorem Attempted.cons {c : Component} {before between after : Store catalog} {a : Attempt κ}
    {as : List (Attempt κ)} {own rest : List (Slot × Measure)} {result : Except Fault Unit}
    (made : a.made catalog c = some own) (stored : before.addAll own = some between)
    (attempted : Attempted c between as rest after result) :
    Attempted c before (a :: as) (own ++ rest) after result := by
  have both (stored' : between.addAll rest = some after) :
      before.addAll (own ++ rest) = some after := by
    rw [addAll_append, stored, Option.bind_some, stored']
  cases attempted with
  | all made' stored' => exact .all (by rw [collect_cons, made, made']; rfl) (both stored')
  | broken split made' stored' fails =>
    exact .broken (by rw [split, List.cons_append]) (by rw [collect_cons, made, made']; rfl)
      (both stored') fails

theorem storeOutputs_eq_forM (traced : Bool) (c : Component) (formulas : List (Formula κ))
    (counters : List κ) :
    (storeOutputs traced c formulas counters : Action (Counted (Store catalog)) Unit) =
      forM (attempts formulas counters) (Attempt.run traced c) := by
  rw [attempts, forM_flatMap_eq, storeOutputs]
  refine congrArg _ (funext fun pair => ?_)
  rw [List.forM_map]
  rfl

/-- An attempt stores what it makes, or fails and leaves the store as it is. -/
theorem stored_or_fails (traced : Bool) (c : Component) (a : Attempt κ)
    (s : Counted (Store catalog)) :
    (∃ own, a.made catalog c = some own ∧ s.state.addAll own = some (a.run traced c s).state.state ∧
        (a.run traced c s).result = .ok ()) ∨
      ∃ fault, (a.run traced c s).result = .error fault ∧ (a.run traced c s).state = s ∧
        a.Fails c s.state fault := by
  obtain ⟨f, counter, key⟩ := a
  cases known : catalog.get key with
  | error fault =>
    refine .inr ⟨fault, ?_, ?_, .unknown known⟩ <;>
      simp [Attempt.run, storeOutput, known, Action.ofExcept, Action.fail, Bind.bind, Action.bind]
  | ok metric =>
    cases makes : f.measure? counter c metric with
    | error fault =>
      refine .inr ⟨fault, ?_, ?_, .unmade known makes⟩ <;>
        simp [Attempt.run, storeOutput, known, makes, Action.ofExcept, Action.fail, Bind.bind,
          Action.bind, Pure.pure, Action.pure]
    | ok measure? =>
      cases measure? with
      | none =>
        refine .inl ⟨[], ?_, ?_, ?_⟩ <;>
          simp [Attempt.made, Attempt.run, Formula.made, storeOutput, known, makes,
            Action.ofExcept, Bind.bind, Action.bind, Pure.pure, Action.pure, Except.toOption,
            addAll]
      | some measure =>
        cases stored : s.state.add c.key key measure with
        | error fault =>
          refine .inr ⟨fault, ?_, ?_, .unstored known makes stored⟩ <;> cases traced <;>
            simp [Attempt.run, storeOutput, known, makes, stored, Action.ofExcept, Bind.bind,
              Action.bind, Pure.pure, Action.pure, emitIf, emit, note, uncounted, Action.change]
        | ok after =>
          refine .inl ⟨[(⟨c.key, key⟩, measure)], ?_, ?_, ?_⟩ <;> cases traced <;>
            simp [Attempt.made, Attempt.run, Formula.made, storeOutput, known, makes, stored,
              Action.ofExcept, Bind.bind, Action.bind, Pure.pure, Action.pure, emitIf, emit, note,
              uncounted, Action.change, countOne, Except.toOption, addAll, add?]

theorem attempted_forM (traced : Bool) (c : Component) (as : List (Attempt κ))
    (s : Counted (Store catalog)) :
    let outcome := forM as (Attempt.run traced c) s
    ∃ own, Attempted c s.state as own outcome.state.state outcome.result := by
  induction as generalizing s with
  | nil => exact ⟨[], .all rfl rfl⟩
  | cons a as ih =>
    rw [List.forM_cons]
    rcases stored_or_fails traced c a s with ⟨own, made, stored, ok⟩ | ⟨fault, failed, same, fails⟩
    · rw [bind_apply_ok _ ok]
      obtain ⟨rest, attempted⟩ := ih (a.run traced c s).state
      exact ⟨own ++ rest, attempted.cons made stored⟩
    · have nothing : collect [] (Attempt.made catalog c : Attempt κ → _) = some [] := rfl
      rw [bind_apply_error _ failed, same]
      exact ⟨[], .broken (List.nil_append _).symm nothing rfl fails⟩

theorem component_eq_of_collect {c : Component} {as : List (Attempt κ)}
    {own : List (Slot × Measure)} {entry : Slot × Measure}
    (made : collect as (Attempt.made catalog c) = some own) (mem : entry ∈ own) :
    entry.1.component = c.key := by
  obtain ⟨a, -, part, made, mem⟩ := mem_of_collect made mem
  exact component_eq_of_made made mem

theorem Attempted.addAll {c : Component} {before after : Store catalog} {as : List (Attempt κ)}
    {own : List (Slot × Measure)} {ended : Except Fault Unit}
    (attempted : Attempted c before as own after ended) : before.addAll own = some after := by
  cases attempted <;> assumption

theorem Attempted.component_eq {c : Component} {before after : Store catalog}
    {as : List (Attempt κ)} {own : List (Slot × Measure)} {ended : Except Fault Unit}
    (attempted : Attempted c before as own after ended) {entry : Slot × Measure}
    (mem : entry ∈ own) : entry.1.component = c.key := by
  cases attempted with
  | all made => exact component_eq_of_collect made mem
  | broken _ made => exact component_eq_of_collect made mem

/-! ## The order of visits -/

/-- The components that get a general call. -/
def generalCalls (calls : List (Callback × Component)) : List Component :=
  calls.filterMap fun
    | (.any, c) => some c
    | (.ofKind _, _) => none

theorem generalCalls_flatMap_callbacks (cs : List Component) :
    generalCalls (cs.flatMap callbacks) = cs := by
  induction cs with
  | nil => rfl
  | cons c cs ih => exact congrArg (c :: ·) ih

theorem generalCalls_append (first second : List (Callback × Component)) :
    generalCalls (first ++ second) = generalCalls first ++ generalCalls second :=
  List.filterMap_append

theorem generalCalls_isPrefix {first second : List Stop} (isPrefix : first <+: second) :
    generalCalls (calledOn first) <+: generalCalls (calledOn second) :=
  List.IsPrefix.filterMap _ (List.IsPrefix.filterMap _ isPrefix)

/-- A visit that is done: the component, and its counters at the end. -/
def doneVisit? : Deed (List κ) → Option (Component × List κ)
  | .called .any path (.ok ends) => some (path.current.component, ends.current)
  | _ => none

/-- Without a fault all general calls are visits that are done. -/
theorem map_fst_doneVisits {log : List (Moment (List κ))}
    (fine : ∀ m ∈ log, m.deed.fault? = none) :
    ((log.map Moment.deed).filterMap doneVisit?).map Prod.fst =
      generalCalls (calledOn (log.map Moment.stop)) := by
  simp only [generalCalls, calledOn, List.map_filterMap, List.filterMap_map,
    List.filterMap_filterMap]
  refine List.filterMap_congr fun m mem => ?_
  have faultless := fine m mem
  obtain ⟨place, deed⟩ := m
  cases deed with
  | created c element => rfl
  | called callback path left =>
    cases left with
    | error fault => contradiction
    | ok ends => cases callback <;> rfl

/-- The visits that are done before a general call are those of all components that come before its
own from the leaves up. -/
theorem visitedUp_eq_of_isPrefix {limit : DepthLimit} {root : Component}
    {earlier : List (Moment (List κ))} {m : Moment (List κ)} {path : Path (List κ)}
    {left : Except Fault (Ends (List κ))} (fine : ∀ m ∈ earlier, m.deed.fault? = none)
    (isCall : m.deed = .called .any path left)
    (onWay : (earlier ++ [m]).map Moment.stop <+: root.stops .postOrder limit []) :
    ∃ rest, root.visitedUp limit = ((earlier.map Moment.deed).filterMap doneVisit?).map Prod.fst ++
      path.current.component :: rest := by
  obtain ⟨rest, order⟩ := generalCalls_isPrefix onWay
  have last : generalCalls (calledOn ([m].map Moment.stop)) = [path.current.component] := by
    simp [calledOn, generalCalls, Moment.stop, isCall, Deed.callback?, Deed.component]
  refine ⟨rest, ?_⟩
  rw [calledOn_stops, generalCalls_flatMap_callbacks, List.map_append, calledOn_append,
    generalCalls_append, last, ← map_fst_doneVisits fine, List.append_assoc] at order
  exact order.symm

/-! ## Visits -/

variable [Counter κ]

section Visits

variable (formulas : List (Formula κ)) (limit : DepthLimit)

/-- What a visit of the component at the end of a path stores, and how it ends: with all that the
counters make stored and the counters of the parent replaced, or with a failure at one of the three
things it does. -/
inductive Visited (path : Path (List κ)) (before : Store catalog) (own : List (Slot × Measure))
    (after : Store catalog) : Except Fault (Ends (List κ)) → Prop
  | done {ends : Ends (List κ)}
      (fed : feedAt limit before path.current.component path.element = .ok ends.current)
      (all : Attempted path.current.component before (attempts formulas ends.current) own after
        (.ok ())) : Visited path before own after (.ok ends)
  | feeding {fault : Fault}
      (failed : feedAt limit before path.current.component path.element = .error fault)
      (nothing : own = []) (same : after = before) : Visited path before own after (.error fault)
  | storing {counters : List κ} {fault : Fault}
      (fed : feedAt limit before path.current.component path.element = .ok counters)
      (broken : Attempted path.current.component before (attempts formulas counters) own after
        (.error fault)) : Visited path before own after (.error fault)
  | folding {counters parents : List κ} {fault : Fault}
      (fed : feedAt limit before path.current.component path.element = .ok counters)
      (all : Attempted path.current.component before (attempts formulas counters) own after
        (.ok ()))
      (above : path.parent? = some parents) (failed : fold parents counters = .error fault) :
      Visited path before own after (.error fault)

end Visits

variable {formulas : List (Formula κ)} {limit : DepthLimit} {traced : Bool}

/-- The ends of a path whose last component hands its counters on to its parent. -/
def handedOn (path : Path (List κ)) (counters : List κ) :
    Action (Counted (Store catalog)) (Ends (List κ)) :=
  match path.parent? with
  | none => pure ⟨counters, none⟩
  | some parents => do
    let parents ← .ofExcept (fold parents counters)
    return ⟨counters, some parents⟩

/-- Handing on fails where folding does, and touches nothing else. -/
theorem handedOn_apply (path : Path (List κ)) (counters : List κ) (s : Counted (Store catalog)) :
    (∃ ends : Ends (List κ), ends.current = counters ∧
        handedOn path counters s = ⟨.ok ends, s, []⟩) ∨
      ∃ parents fault, path.parent? = some parents ∧ fold parents counters = .error fault ∧
        handedOn path counters s = ⟨.error fault, s, []⟩ := by
  cases above : path.parent? with
  | none =>
    refine .inl ⟨⟨counters, none⟩, rfl, ?_⟩
    rw [handedOn, above]
    rfl
  | some parents =>
    cases folded : fold parents counters with
    | ok parents' =>
      refine .inl ⟨⟨counters, some parents'⟩, rfl, ?_⟩
      rw [handedOn, above]
      simp [folded, Action.ofExcept]
    | error fault =>
      refine .inr ⟨parents, fault, rfl, folded, ?_⟩
      rw [handedOn, above]
      simp [folded, Action.ofExcept, fail, Bind.bind, Action.bind]

theorem call_any_visitor (path : Path (List κ)) :
    (visitor formulas limit traced).call .any path =
      (complete formulas limit traced path.current.component path.element :
        Action (Counted (Store catalog)) _) >>= handedOn path := by
  obtain ⟨current, above⟩ := path
  cases above <;> by_cases leaf : limit.IsLeafDepth current.component.kind <;>
    simp [visitor, complete, feedAt, handedOn, leaf, Path.parent?, Path.element, Action.ofExcept]

theorem complete_apply_of_error {c : Component} {counters : List κ} {s : Counted (Store catalog)}
    {fault : Fault} (failed : feedAt limit s.state c counters = .error fault) :
    complete formulas limit traced c counters s = ⟨.error fault, s, []⟩ := by
  rw [complete_apply, failed]
  rfl

theorem complete_apply_of_ok {c : Component} {counters fed : List κ} {s : Counted (Store catalog)}
    (feeds : feedAt limit s.state c counters = .ok fed) :
    let stores := forM (attempts formulas fed) (Attempt.run traced c) s
    complete formulas limit traced c counters s =
      ⟨stores.result.map fun _ => fed, stores.state, stores.journal⟩ := by
  intro stores
  rw [complete_apply, feeds]
  change (storeOutputs traced c formulas fed >>= fun _ => pure fed) s = _
  rw [storeOutputs_eq_forM]
  exact replace_apply _ fed s

/-- Every visit ends in one of these ways. -/
theorem visited_call_any (traced : Bool) (path : Path (List κ)) (s : Counted (Store catalog)) :
    let outcome := (visitor formulas limit traced).call .any path s
    ∃ own, Visited formulas limit path s.state own outcome.state.state outcome.result := by
  rw [call_any_visitor]
  let completed := complete formulas limit traced path.current.component path.element s
  cases fed : feedAt limit s.state path.current.component path.element with
  | error fault =>
    have run : completed = ⟨.error fault, s, []⟩ := complete_apply_of_error fed
    have failed : completed.result = .error fault := by rw [run]
    rw [bind_apply_error _ failed, show completed.state = s by rw [run]]
    exact ⟨[], .feeding fed rfl rfl⟩
  | ok counters =>
    let stores : Outcome (Counted (Store catalog)) Unit :=
      forM (attempts formulas counters) (Attempt.run traced path.current.component) s
    have run : completed = ⟨stores.result.map fun _ => counters, stores.state, stores.journal⟩ :=
      complete_apply_of_ok fed
    obtain ⟨own, attempted⟩ : ∃ own, Attempted path.current.component s.state
      (attempts formulas counters) own stores.state.state stores.result := attempted_forM ..
    have state : completed.state = stores.state := by rw [run]
    refine ⟨own, ?_⟩
    cases result : stores.result with
    | error fault =>
      have failed : completed.result = .error fault := by
        rw [run, result]
        rfl
      rw [bind_apply_error _ failed, state]
      exact .storing fed (result ▸ attempted)
    | ok a =>
      have succeeds : completed.result = .ok counters := by
        rw [run, result]
        rfl
      rw [bind_apply_ok _ succeeds, state]
      rw [result] at attempted
      rcases handedOn_apply path counters stores.state with
        ⟨ends, rfl, handed⟩ | ⟨parents, fault, above, failed, handed⟩
      · rw [handed]
        exact .done fed attempted
      · rw [handed]
        exact .folding fed attempted above failed

/-! ## Runs -/

/-- What counters make at a component, formula by formula. -/
def yield (catalog : Catalog) (formulas : List (Formula κ)) (visit : Component × List κ) :
    Option (List (Slot × Measure)) :=
  collect (attempts formulas visit.2) (Attempt.made catalog visit.1)

/-- A deed without a fault stores the measures of the visit that it is, if it is one. -/
theorem addAll_of_leads {deed : Deed (List κ)} {s t : Counted (Store catalog)}
    (leads : deed.Leads (visitor formulas limit traced) s t) (fine : deed.fault? = none) :
    ∃ entries, collect (doneVisit? deed).toList (yield catalog formulas) = some entries ∧
      s.state.addAll entries = some t.state := by
  cases deed with
  | created c element =>
    obtain ⟨-, rfl⟩ := Prod.mk.inj leads
    exact ⟨[], rfl, rfl⟩
  | called callback path left =>
    obtain ⟨result, rfl⟩ := leads
    cases callback with
    | ofKind kind => exact ⟨[], rfl, rfl⟩
    | any =>
      obtain ⟨own, visited⟩ := visited_call_any traced path s
      cases left with
      | error fault => contradiction
      | ok ends =>
        rw [result] at visited
        cases visited with
        | done fed all =>
          cases all with
          | all made stored =>
            refine ⟨own, ?_, stored⟩
            rwa [doneVisit?, Option.toList, collect_singleton]

theorem addAll_of_trace {root : Component} {before log : List (Moment (List κ))}
    {s t : Counted (Store catalog)}
    (trace : PathVisitor.Trace (visitor formulas limit traced) root before s log t)
    (fine : ∀ m ∈ log, m.deed.fault? = none) :
    ∃ entries, collect ((log.map Moment.deed).filterMap doneVisit?) (yield catalog formulas) =
        some entries ∧ s.state.addAll entries = some t.state := by
  induction trace with
  | nil before s => exact ⟨[], rfl, rfl⟩
  | @cons before log m s t u leads _ _ ih =>
    obtain ⟨own, made, stored⟩ := addAll_of_leads leads (fine m List.mem_cons_self)
    obtain ⟨rest, made', stored'⟩ := ih fun m mem => fine m (List.mem_cons_of_mem _ mem)
    refine ⟨own ++ rest, ?_, by rw [addAll_append, stored, Option.bind_some, stored']⟩
    rw [List.filterMap_eq_flatMap_toList] at made' ⊢
    rw [List.map_cons, List.flatMap_cons, collect_append, made, made']
    rfl

/-- Only the general call of a component fails. -/
theorem visited_of_fault {deed : Deed (List κ)} {s t : Counted (Store catalog)} {fault : Fault}
    (leads : deed.Leads (visitor formulas limit traced) s t) (failed : deed.fault? = some fault) :
    ∃ path own, deed = .called .any path (.error fault) ∧
      Visited formulas limit path s.state own t.state (.error fault) := by
  cases deed with
  | created c element => contradiction
  | called callback path left =>
    obtain ⟨result, rfl⟩ := leads
    cases left with
    | ok ends => contradiction
    | error fault' =>
      obtain rfl := Option.some.inj failed
      cases callback with
      | ofKind kind => contradiction
      | any =>
        obtain ⟨own, visited⟩ := visited_call_any traced path s
        rw [result] at visited
        exact ⟨path, own, rfl, visited⟩

/-- A visit that does not fail at once stores what its attempts make. -/
theorem Visited.nothing_or_attempted {path : Path (List κ)} {before after : Store catalog}
    {own : List (Slot × Measure)} {result : Except Fault (Ends (List κ))}
    (visited : Visited formulas limit path before own after result) :
    (own = [] ∧ after = before) ∨
      ∃ (as : List (Attempt κ)) (ended : Except Fault Unit),
        Attempted path.current.component before as own after ended := by
  cases visited with
  | done _ all => exact .inr ⟨_, _, all⟩
  | feeding _ nothing same => exact .inl ⟨nothing, same⟩
  | storing _ broken => exact .inr ⟨_, _, broken⟩
  | folding _ all => exact .inr ⟨_, _, all⟩

theorem Visited.addAll {path : Path (List κ)} {before after : Store catalog}
    {own : List (Slot × Measure)} {result : Except Fault (Ends (List κ))}
    (visited : Visited formulas limit path before own after result) :
    before.addAll own = some after := by
  rcases visited.nothing_or_attempted with ⟨rfl, rfl⟩ | ⟨as, ended, attempted⟩
  · rfl
  · exact attempted.addAll

/-- A visit stores measures of its own component only. -/
theorem Visited.component_eq {path : Path (List κ)} {before after : Store catalog}
    {own : List (Slot × Measure)} {result : Except Fault (Ends (List κ))}
    (visited : Visited formulas limit path before own after result) {entry : Slot × Measure}
    (mem : entry ∈ own) : entry.1.component = path.current.component.key := by
  rcases visited.nothing_or_attempted with ⟨rfl, -⟩ | ⟨as, ended, attempted⟩
  · contradiction
  · exact attempted.component_eq mem

theorem crawl_fails_of_rollUp {root : Component} {store : Store catalog} {fault : Fault}
    (failed : (rollUp formulas limit traced root store).result = .error fault) :
    ((visitor formulas limit traced).crawl root ⟨store, 0⟩).result = .error fault := by
  rw [(rollUp_apply_crawl root store).1] at failed
  cases result : ((visitor formulas limit traced).crawl root ⟨store, 0⟩).result with
  | ok a =>
    rw [result] at failed
    contradiction
  | error fault' =>
    rw [result] at failed
    exact congrArg _ (Except.error.inj failed)

/-- A run of formulas that fails breaks off at a component. The visits of all components before it
are done, which are those that come before it from the leaves up, and the store holds what it held
at first, all that the counters of these components make, and of the component itself what comes
before the failure: all of it if folding its counters into those of its parent failed. No component
that comes later, none above and none out of reach has gained a measure. -/
theorem failed_rollUp_breaks_off (formulas : List (Formula κ)) (limit : DepthLimit)
    (traced : Bool) (tree : ComponentTree) (store : Store catalog) {fault : Fault}
    (failed : (rollUp formulas limit traced tree.root store).result = .error fault) :
    let run := (visitor formulas limit traced).observed.crawl tree.root ⟨⟨store, 0⟩, []⟩
    let after := (rollUp formulas limit traced tree.root store).state
    run.result = .error fault ∧ run.state.state.state = after ∧
      ∃ deeds path rest between entries own,
        run.state.deeds = deeds ++ [.called .any path (.error fault)] ∧
        tree.root.visitedUp limit =
          (deeds.filterMap doneVisit?).map Prod.fst ++ path.current.component :: rest ∧
        collect (deeds.filterMap doneVisit?) (yield catalog formulas) = some entries ∧
        store.addAll entries = some between ∧
        Visited formulas limit path between own after (.error fault) ∧
        (∀ component metric measure, after.find? component metric = some measure ↔
          store.find? component metric = some measure ∨
            (⟨component, metric⟩, measure) ∈ entries ++ own) ∧
        ∀ d ∈ tree.components,
          d ∈ rest ∨ path.current.component ∈ d.descendants ∨ d ∉ tree.root.visitedUp limit →
            ∀ metric, after.find? d.key metric = store.find? d.key metric := by
  intro run after
  obtain ⟨same, state, -⟩ :=
    (visitor formulas limit traced).mirrors_crawl tree.root ⟨⟨store, 0⟩, []⟩
  have broken : run.result = .error fault := same.trans (crawl_fails_of_rollUp failed)
  have final : run.state.state.state = after := by
    rw [state]
    exact (rollUp_apply_crawl tree.root store).2.symm
  obtain ⟨log, deeds, trace, ends⟩ :=
    (visitor formulas limit traced).traces_crawl tree.root ⟨⟨store, 0⟩, []⟩
  rw [broken] at ends
  -- Only the last deed has a fault, so that all visits before it are done.
  obtain ⟨onWay, earlier, m, rfl, faulty, fine⟩ := ends
  obtain ⟨⟨between, count⟩, first, last⟩ := trace.split
  obtain ⟨entries, made, stored⟩ := addAll_of_trace first fine
  obtain ⟨path, own, isCall, visited⟩ : ∃ path own, m.deed = .called .any path (.error fault) ∧
      Visited formulas limit path between own after (.error fault) := by
    cases last with
    | cons leads _ rest =>
      cases rest
      obtain ⟨path, own, isCall, visited⟩ := visited_of_fault leads faulty
      exact ⟨path, own, isCall, final ▸ visited⟩
  obtain ⟨rest, order⟩ := visitedUp_eq_of_isPrefix fine isCall onWay
  have whole : store.addAll (entries ++ own) = some after := by
    rw [addAll_append, stored, Option.bind_some, visited.addAll]
  refine ⟨broken, final, earlier.map Moment.deed, path, rest, between, entries, own, ?_, order,
    made, stored, visited, fun _ _ _ => find?_eq_some_iff_of_addAll whole, ?_⟩
  · rw [deeds, List.map_append, List.map_singleton, isCall]
    rfl
  · intro d mem untouched metric
    have others := tree.key_ne_of_visitedUp order mem untouched
    ext measure
    rw [find?_eq_some_iff_of_addAll whole, or_iff_left]
    intro gained
    rcases List.mem_append.mp gained with gained | gained
    · obtain ⟨visit, isDone, part, made, gained⟩ := mem_of_collect made gained
      refine others visit.1 (List.mem_append_left _ (List.mem_map_of_mem isDone)) ?_
      exact (component_eq_of_collect made gained).symm
    · exact others _ (List.mem_append_right _ List.mem_cons_self)
        (visited.component_eq gained).symm

end Formula

namespace FailureWitnesses

def metrics : Catalog := ⟨[⟨"ncloc", .int, "Lines"⟩, ⟨"total", .int, "Sum of lines"⟩], by decide⟩

def file (key : String) (reference : Int32) : Component :=
  .node ⟨key, none, key, .file ⟨reference, none, none⟩ {}⟩ []

def tree : ComponentTree :=
  ⟨.node ⟨"P", none, "P", .project ⟨1, none, none⟩⟩ [file "F" 2, file "G" 3], by decide, by decide⟩

/-- The lines of the two files have no sum that fits. -/
def measured : Store metrics :=
  ((∅ : Store metrics).put "F" "ncloc" ⟨"ncloc", .int Int32.maxValue⟩ ⟨_, rfl, rfl, .inr rfl⟩).put
    "G" "ncloc" ⟨"ncloc", .int 1⟩ ⟨_, rfl, rfl, .inr rfl⟩

def formulas : List (Formula (SumCounter Int32)) := [.sum "ncloc" "total"]

def run : Outcome (Store metrics) Nat :=
  Formula.rollUp formulas .file false tree.root measured

/-- The second file has stored its total before it failed to fold it into that of the project. -/
theorem failed_rollUp_breaks_off_project :
    run.result = .error (.sumOverflow "ncloc") ∧ (run.state.find? "F" "total").isSome ∧
      (run.state.find? "G" "total").isSome ∧ run.state.find? "P" "total" = none ∧
      ∃ done path rest between own, tree.root.visitedUp .file =
          done ++ path.current.component :: rest ∧
        Formula.Visited formulas .file path between own run.state (.error (.sumOverflow "ncloc")) ∧
        ∀ d ∈ tree.components, d ∈ rest ∨ path.current.component ∈ d.descendants ∨
          d ∉ tree.root.visitedUp .file → run.state.find? d.key "total" = none := by
  have failed : run.result = .error (.sumOverflow "ncloc") := by decide +kernel
  have fresh : ∀ d ∈ tree.components, measured.find? d.key "total" = none := by decide +kernel
  obtain ⟨-, -, deeds, path, rest, between, entries, own, -, order, -, -, visited, -, others⟩ :=
    Formula.failed_rollUp_breaks_off formulas .file false tree measured failed
  refine ⟨failed, by decide +kernel, by decide +kernel, by decide +kernel, _, path, rest, between,
    own, order, visited, fun d mem untouched => ?_⟩
  exact (others d mem untouched "total").trans (fresh d mem)

end FailureWitnesses

end Metrology
