import Metrology.Aggregation.RollUp
import Metrology.Proofs.CrawlOrder
import Metrology.Proofs.Growth
import Metrology.Proofs.PathCrawls
import Metrology.Proofs.Runs

/-! # Gathering without paths

Formulas are run along paths, and the counters of the components above wait on the path until their
children are done. The same is done by a recursion over the tree that hands the counters of a
component to its parent as a result.
-/

namespace Metrology.Formula

open Metrology.Action

variable {κ : Type} {catalog : Catalog}

/-! ## Storing outputs -/

theorem storeOutput_of_none {formula : Formula κ} {counter : κ} {c : Component}
    {key : String} {metric : Metric} {traced : Bool} (known : catalog.find? key = some metric)
    (made : formula.measure? counter c metric = .ok none) (s : Counted (Store catalog)) :
    storeOutput traced c formula counter key s = ⟨.ok (), s, []⟩ := by
  simp [storeOutput, Bind.bind, Action.bind, Action.ofExcept, Catalog.get_of_find? known, made,
    Pure.pure, Action.pure]

theorem storeOutput_of_some {formula : Formula κ} {counter : κ} {c : Component}
    {key : String} {metric : Metric} {measure : Measure} {traced : Bool}
    (known : catalog.find? key = some metric)
    (made : formula.measure? counter c metric = .ok (some measure)) {s : Counted (Store catalog)}
    {after : Store catalog} (stored : s.state.add c.key key measure = .ok after) :
    (storeOutput traced c formula counter key s).result = .ok () ∧
      (storeOutput traced c formula counter key s).state = ⟨after, s.count + 1⟩ := by
  cases traced <;>
    simp [storeOutput, Bind.bind, Action.bind, Action.ofExcept, Catalog.get_of_find? known, made,
      Pure.pure, Action.pure, Action.emitIf, Action.emit, Action.note, Action.uncounted,
      Action.change, stored, Action.countOne]

/-! ## Recursion -/

variable [Counter κ]

section Recursion

variable (formulas : List (Formula κ)) (limit : DepthLimit) (traced : Bool)

/-- The counters of a component, fed from its own measures if it is a leaf of the crawl. -/
def feedAt (store : Store catalog) (c : Component) (counters : List κ) : Except Fault (List κ) :=
  if limit.IsLeafDepth c.kind then feed (leafOf store c) counters else .ok counters

/-- What a component does with its counters once those of its children were added to them. -/
def complete (c : Component) (counters : List κ) :
    Action (Counted (Store catalog)) (List κ) := do
  let store ← .uncounted .get
  let counters ← .ofExcept (feedAt limit store c counters)
  storeOutputs traced c formulas counters
  return counters

mutual

/-- The counters of a component after all allowed ones below it have stored their measures, and it
has stored its own. -/
def gather : Component → Nat → Action (Counted (Store catalog)) (List κ)
  | .node profile children, depth => do
    Action.emit (.visiting profile.key (some depth))
    let counters ← gatherAll children (depth + 1) (formulas.map Formula.counter)
    complete formulas limit traced (.node profile children) counters

/-- The counters of a parent after those of its allowed children were added to them. -/
def gatherAll : List Component → Nat → List κ → Action (Counted (Store catalog)) (List κ)
  | [], _, counters => pure counters
  | c :: cs, depth, counters =>
    if limit.Allows c.kind then do
      let below ← gather c depth
      let counters ← .ofExcept (fold counters below)
      gatherAll cs depth counters
    else gatherAll cs depth counters

end

end Recursion

variable {formulas : List (Formula κ)} {limit : DepthLimit} {traced : Bool}

theorem complete_apply (c : Component) (counters : List κ) (s : Counted (Store catalog)) :
    complete formulas limit traced c counters s =
      (ofExcept (feedAt limit s.state c counters) >>= fun counters =>
        storeOutputs traced c formulas counters >>= fun _ => pure counters) s := rfl

theorem gather_node_apply (profile : Profile) (children : List Component) (depth : Nat)
    (s : Counted (Store catalog)) :
    gather formulas limit traced (.node profile children) depth s =
      let rest := (gatherAll formulas limit traced children (depth + 1)
        (formulas.map Formula.counter) >>=
          complete formulas limit traced (.node profile children)) s
      ⟨rest.result, rest.state, .event (.visiting profile.key (some depth)) :: rest.journal⟩ := rfl

/-- The path whose end has handed its counters on to its parent. -/
def handOn (c : Component) (above : List (Station (List κ))) (counters : List κ) :
    Action (Counted (Store catalog)) (Path (List κ)) :=
  match above with
  | [] => pure ⟨⟨c, counters⟩, []⟩
  | parent :: rest => do
    let parents ← .ofExcept (fold parent.element counters)
    return ⟨⟨c, counters⟩, ⟨parent.component, parents⟩ :: rest⟩

theorem enter_visitor (c : Component) :
    (visitor formulas limit traced : PathVisitor (Counted (Store catalog)) _).enter c =
      pure (formulas.map Formula.counter) := rfl

theorem step_ofKind_visitor (kind : ComponentKind) (path : Path (List κ)) :
    (visitor formulas limit traced : PathVisitor (Counted (Store catalog)) _).step
      (.ofKind kind) path = pure path := by
  obtain ⟨current, above⟩ := path
  cases above <;> rfl

theorem step_any_visitor (c : Component) (counters : List κ) (above : List (Station (List κ))) :
    (visitor formulas limit traced).step .any ⟨⟨c, counters⟩, above⟩ =
      (complete formulas limit traced c counters : Action (Counted (Store catalog)) _) >>=
        handOn c above := by
  cases above with
  | nil =>
    by_cases leaf : limit.IsLeafDepth c.kind <;>
      simp [PathVisitor.step, visitor, complete, feedAt, handOn, leaf, Path.parent?,
        Path.withEnds, Path.element, Action.ofExcept]
  | cons parent rest =>
    by_cases leaf : limit.IsLeafDepth c.kind <;>
      simp [PathVisitor.step, visitor, complete, feedAt, handOn, leaf, Path.parent?,
        Path.withEnds, Path.element, Action.ofExcept]

theorem dispatch_visitor (c : Component) (counters : List κ) (above : List (Station (List κ))) :
    (visitor formulas limit traced).dispatch ⟨⟨c, counters⟩, above⟩ =
      (complete formulas limit traced c counters : Action (Counted (Store catalog)) _) >>=
        handOn c above := by
  simp only [PathVisitor.dispatch, step_ofKind_visitor, bind_pure, step_any_visitor]

/-- Formulas fold the tree: on the way back up the counters with which a component is left are added
to those of its parent. -/
theorem folds_visitor : (visitor formulas limit traced :
    PathVisitor (Counted (Store catalog)) (List κ)).Folds fun parents counters =>
      (fold parents counters).toOption.getD parents where
  postOrder := rfl
  combines {path path' s} succeeded := by
    obtain ⟨⟨c, counters⟩, above⟩ := path
    rw [dispatch_visitor] at succeeded
    obtain ⟨completed, -, handed⟩ := of_bind_eq_ok succeeded
    cases above with
    | nil =>
      obtain rfl := Except.ok.inj handed
      rfl
    | cons parent rest =>
      obtain ⟨parents, folded, last⟩ := of_bind_eq_ok handed
      obtain rfl := Except.ok.inj last
      rw [result_ofExcept] at folded
      simp [Path.parent?, Path.element, folded, Except.toOption]

/-- Visiting children along the path to their parent changes the counters of the parent only. -/
theorem visitAll_eq_gatherAll {cs : List Component}
    (each : ∀ c ∈ cs, ∀ above,
      (visitor formulas limit traced).visit c ⟨⟨c, formulas.map Formula.counter⟩, above⟩ =
        (gather formulas limit traced c above.length : Action (Counted (Store catalog)) _) >>=
          handOn c above)
    (parent : Component) (counters : List κ) (above : List (Station (List κ))) :
    (visitor formulas limit traced).visitAll cs ⟨⟨parent, counters⟩, above⟩ =
      (gatherAll formulas limit traced cs (above.length + 1) counters :
        Action (Counted (Store catalog)) _) >>= fun counters =>
          pure ⟨⟨parent, counters⟩, above⟩ := by
  induction cs generalizing counters with
  | nil => rw [PathVisitor.visitAll, gatherAll, pure_bind]
  | cons c cs ih =>
    have rest := ih fun d mem => each d (List.mem_cons_of_mem _ mem)
    rw [PathVisitor.visitAll, gatherAll]
    by_cases allowed : limit.Allows c.kind
    · rw [if_pos (show (visitor formulas limit traced).limit.Allows c.kind from allowed),
        if_pos allowed, enter_visitor, pure_bind, Path.push, each c List.mem_cons_self]
      simp [handOn, Path.pop, rest]
    · rw [if_neg (show ¬ (visitor formulas limit traced).limit.Allows c.kind from allowed),
        if_neg allowed, rest]

theorem visit_eq_gather (c : Component) (above : List (Station (List κ))) :
    (visitor formulas limit traced).visit c ⟨⟨c, formulas.map Formula.counter⟩, above⟩ =
      (gather formulas limit traced c above.length : Action (Counted (Store catalog)) _) >>=
        handOn c above := by
  induction c generalizing above with
  | node profile children ih =>
    have post : (visitor formulas limit traced :
        PathVisitor (Counted (Store catalog)) (List κ)).order = .postOrder := rfl
    rw [PathVisitor.visit, gather, PathVisitor.dispatchAt, if_neg (by simp [post]), pure_bind,
      visitAll_eq_gatherAll ih]
    simp [PathVisitor.dispatchAt, post, dispatch_visitor, Path.depth]

/-- Running formulas over a tree is gathering at its root. -/
theorem crawl_eq_gather {root : Component} (allowed : limit.Allows root.kind) :
    (visitor formulas limit traced).crawl root =
      (gather formulas limit traced root 0 : Action (Counted (Store catalog)) _) >>= fun _ =>
        pure () := by
  rw [PathVisitor.crawl, if_pos (show (visitor formulas limit traced).limit.Allows root.kind
    from allowed), enter_visitor, pure_bind, Path.start, visit_eq_gather, bind_assoc]
  rfl

/-- A roll-up fails where its crawl fails, and otherwise gives the number of measures stored. -/
theorem rollUp_apply_crawl (root : Component) (store : Store catalog) :
    let crawled := (visitor formulas limit traced).crawl root ⟨store, 0⟩
    (rollUp formulas limit traced root store).result =
        (crawled.result.map fun _ => crawled.state.count) ∧
      (rollUp formulas limit traced root store).state = crawled.state.state := by
  intro crawled
  have counted := result_counting ((visitor formulas limit traced).crawl root) store
  have state := state_counting ((visitor formulas limit traced).crawl root) store
  rw [rollUp]
  cases result : crawled.result with
  | ok a =>
    rw [show ((visitor formulas limit traced).crawl root ⟨store, 0⟩).result = .ok a from result]
      at counted
    rw [bind_apply_ok _ counted]
    exact ⟨rfl, state⟩
  | error fault =>
    rw [show ((visitor formulas limit traced).crawl root ⟨store, 0⟩).result = .error fault
      from result] at counted
    rw [bind_apply_error _ counted]
    exact ⟨rfl, state⟩

/-- A roll-up fails where gathering fails, and otherwise gives the number of measures stored. -/
theorem rollUp_apply {root : Component} (allowed : limit.Allows root.kind)
    (store : Store catalog) :
    let gathered := gather formulas limit traced root 0 ⟨store, 0⟩
    (rollUp formulas limit traced root store).result =
        (gathered.result.map fun _ => gathered.state.count) ∧
      (rollUp formulas limit traced root store).state = gathered.state.state := by
  intro gathered
  have crawl : (visitor formulas limit traced).crawl root ⟨store, 0⟩ =
      ⟨gathered.result.map fun _ => (), gathered.state, gathered.journal⟩ := by
    rw [crawl_eq_gather allowed]
    exact discard_apply _ _
  obtain ⟨result, state⟩ := @rollUp_apply_crawl _ catalog _ formulas limit traced root store
  rw [crawl] at result state
  rw [result, state]
  exact ⟨by cases gathered.result <;> rfl, rfl⟩

end Metrology.Formula
