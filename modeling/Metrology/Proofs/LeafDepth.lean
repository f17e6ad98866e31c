import Metrology.Proofs.Aggregation.Gathering
import Metrology.Proofs.Aggregation.Whole
import Metrology.Proofs.Logs
import Metrology.Proofs.TreeShape

/-! # Components at leaf depth

A component whose kind is the depth limit is meant to be a leaf of the crawl. It is one unless it
holds a component of its own kind: modules and sub-views nest, and a crawl that is limited to them
enters the inner ones too. The counters of the outer one are then fed twice, from the inner ones and
from its own measures.
-/

namespace Metrology

open Metrology.Action

namespace DepthLimit

/-- Of what may stand below the very limit, its own kind is allowed and nothing else. -/
theorem allows_iff_eq {limit : DepthLimit} {kind below : ComponentKind}
    (leaf : limit.IsLeafDepth kind) (placed : kind.Contains below) :
    limit.Allows below ↔ below = kind := by
  obtain ⟨sameFamily, noHigher⟩ := ComponentKind.near_of_contains placed
  have same : limit.limitFor below = kind := by
    rw [leaf, limitFor, limitFor, sameFamily]
  constructor
  · intro allowed
    rw [Allows, same] at allowed
    have notDeeper : ¬ kind.depth < below.depth := fun deeper => allowed ⟨sameFamily, deeper⟩
    exact ComponentKind.eq_of_depth_eq sameFamily (by omega)
  · rintro rfl
    exact allows_of_isLeafDepth leaf

end DepthLimit

/-! ## What a crawl visits below a component -/

namespace Component

theorem child_mem_descendants {c child : Component} (isChild : child ∈ c.children) :
    child ∈ c.descendants :=
  mem_descendants_iff.mpr ⟨child, isChild, self_mem_preorder child⟩

/-- A crawl that visits a component visits those of its children that are allowed. -/
theorem child_mem_visited {limit : DepthLimit} {c d child : Component}
    (visited : d ∈ c.visited limit) (isChild : child ∈ d.children)
    (allowed : limit.Allows child.kind) : child ∈ c.visited limit := by
  have own : ∀ e : Component, limit.Allows e.kind → e ∈ e.visited limit := by
    intro e allowed
    rw [visited_eq_cons allowed]
    exact List.mem_cons_self
  induction c with
  | node profile children ih =>
    by_cases entered : limit.Allows (node profile children).kind
    · rw [visited_eq_cons entered] at visited ⊢
      apply List.mem_cons_of_mem
      rcases List.mem_cons.mp visited with rfl | visited
      · exact List.mem_flatMap.mpr ⟨child, isChild, own child allowed⟩
      · obtain ⟨top, topMem, visited⟩ := List.mem_flatMap.mp visited
        exact List.mem_flatMap.mpr ⟨top, topMem, ih top topMem visited⟩
    · rw [visited_eq_nil entered] at visited
      contradiction

theorem wellFormed_of_mem_visited {limit : DepthLimit} {c d : Component}
    (wellFormed : c.WellFormed) (visited : d ∈ c.visited limit) : d.WellFormed :=
  wellFormed_of_mem_preorder wellFormed ((visited_sublist_preorder limit c).subset visited)

theorem kind_eq_of_mem_descendants {limit : DepthLimit} {c d e : Component}
    (wellFormed : c.WellFormed) (visited : d ∈ c.visited limit) (leaf : limit.IsLeafDepth d.kind)
    (below : e ∈ d.descendants) (visited' : e ∈ c.visited limit) :
    e.kind = d.kind ∧ d.kind.nests = true := by
  have placed := contains_of_mem_descendants (wellFormed_of_mem_visited wellFormed visited) below
  have same := (DepthLimit.allows_iff_eq leaf placed).mp (allows_of_mem_visited visited')
  rcases placed with ⟨-, deeper⟩ | ⟨-, nests⟩
  · rw [same] at deeper
    exact absurd deeper (Nat.lt_irrefl _)
  · exact ⟨same, nests⟩

/-- At leaf depth those children are allowed that are of the same kind. -/
theorem allows_child_iff {limit : DepthLimit} {d child : Component} (wellFormed : d.WellFormed)
    (leaf : limit.IsLeafDepth d.kind) (isChild : child ∈ d.children) :
    limit.Allows child.kind ↔ child.kind = d.kind :=
  DepthLimit.allows_iff_eq leaf
    (contains_of_mem_descendants wellFormed (child_mem_descendants isChild))

theorem not_visited_below_iff {limit : DepthLimit} {c d : Component} (wellFormed : c.WellFormed)
    (visited : d ∈ c.visited limit) (leaf : limit.IsLeafDepth d.kind) :
    (∀ e ∈ d.descendants, e ∉ c.visited limit) ↔ ∀ child ∈ d.children, child.kind ≠ d.kind := by
  have own := wellFormed_of_mem_visited wellFormed visited
  constructor
  · intro unvisited child isChild same
    have allowed := (allows_child_iff own leaf isChild).mpr same
    exact unvisited child (child_mem_descendants isChild)
      (child_mem_visited visited isChild allowed)
  · intro apart e below visited'
    -- The child that `e` lies in would have to be allowed.
    obtain ⟨child, isChild, mem⟩ := mem_descendants_iff.mp below
    have denied : ¬ limit.Allows child.kind := fun allowed =>
      apart child isChild ((allows_child_iff own leaf isChild).mp allowed)
    have childWellFormed : child.WellFormed :=
      wellFormed_of_mem_preorder own (mem_preorder_iff.mpr (.inr (child_mem_descendants isChild)))
    exact not_allows_of_mem_preorder childWellFormed denied mem (allows_of_mem_visited visited')

end Component

/-! ## What feeds the counters -/

namespace Formula

variable {κ : Type} [Counter κ] {catalog : Catalog} {formulas : List (Formula κ)}
  {limit : DepthLimit} {traced : Bool}

/-- A visit of the component, begun with new counters, may end with these. -/
def Gathers (catalog : Catalog) (formulas : List (Formula κ)) (limit : DepthLimit) (traced : Bool)
    (c : Component) (counters : List κ) : Prop :=
  ∃ (above : List (Station (List κ))) (start : Counted (Store catalog)) (path : Path (List κ)),
    ((visitor formulas limit traced).visit c
        ⟨⟨c, formulas.map Formula.counter⟩, above⟩ start).result = .ok path ∧
      path.element = counters

/-- A visit that succeeds leaves its counters at the end of the path, and has added them to those of
the parent. -/
theorem visit_of_ok {c : Component} {parent : Station (List κ)} {above : List (Station (List κ))}
    {start : Counted (Store catalog)} {path : Path (List κ)}
    (ok : ((visitor formulas limit traced).visit c
      ⟨⟨c, formulas.map Formula.counter⟩, parent :: above⟩ start).result = .ok path) :
    ∃ folded, fold parent.element path.element = .ok folded ∧
      path.pop = ⟨⟨parent.component, folded⟩, above⟩ := by
  rw [visit_eq_gather] at ok
  obtain ⟨counters, -, handed⟩ := of_bind_eq_ok ok
  obtain ⟨folded, added, arrived⟩ := of_bind_eq_ok handed
  rw [result_ofExcept] at added
  obtain rfl := Except.ok.inj arrived
  exact ⟨folded, added, rfl⟩

/-- Visiting children adds to the counters of the parent what each allowed child has gathered. -/
theorem visitAll_of_ok {cs : List Component} {parent : Component} {counters : List κ}
    {above : List (Station (List κ))} {start : Counted (Store catalog)} {path : Path (List κ)}
    (ok : ((visitor formulas limit traced).visitAll cs
      ⟨⟨parent, counters⟩, above⟩ start).result = .ok path) :
    ∃ below gathered, path = ⟨⟨parent, gathered⟩, above⟩ ∧
      List.Forall₂ (Gathers catalog formulas limit traced)
        (cs.filter fun c => limit.Allows c.kind) below ∧
      below.foldlM fold counters = .ok gathered := by
  induction cs generalizing counters start with
  | nil =>
    rw [PathVisitor.visitAll] at ok
    exact ⟨[], counters, (Except.ok.inj ok).symm, .nil, rfl⟩
  | cons c cs ih =>
    rw [PathVisitor.visitAll] at ok
    by_cases allowed : limit.Allows c.kind
    · rw [if_pos (show (visitor formulas limit traced).limit.Allows c.kind from allowed),
        enter_visitor, pure_bind] at ok
      obtain ⟨lower, visited, rest⟩ := of_bind_eq_ok ok
      obtain ⟨folded, added, popped⟩ := visit_of_ok visited
      rw [popped] at rest
      obtain ⟨below, gathered, same, each, all⟩ := ih rest
      refine ⟨lower.element :: below, gathered, same, ?_, ?_⟩
      · rw [List.filter_cons_of_pos (by simpa using allowed)]
        exact .cons ⟨_, _, lower, visited, rfl⟩ each
      · rw [List.foldlM_cons, added]
        exact all
    · rw [if_neg (show ¬ (visitor formulas limit traced).limit.Allows c.kind from allowed)] at ok
      rw [List.filter_cons_of_neg (by simpa using allowed)]
      exact ih ok

/-- A visit that succeeds ends with counters that were fed by the children visited and, at leaf
depth, from the measures of the component itself. -/
theorem fed_of_visit {c : Component} {above : List (Station (List κ))}
    {start : Counted (Store catalog)} {path : Path (List κ)}
    (ok : ((visitor formulas limit traced).visit c
      ⟨⟨c, formulas.map Formula.counter⟩, above⟩ start).result = .ok path) :
    ∃ (below : List (List κ)) (store : Store catalog),
      List.Forall₂ (Gathers catalog formulas limit traced)
        (c.children.filter fun child => limit.Allows child.kind) below ∧
      (below.foldlM fold (formulas.map Formula.counter) >>= feedAt limit store c) =
        .ok path.element := by
  cases c with
  | node profile children =>
    have post : (visitor formulas limit traced :
        PathVisitor (Counted (Store catalog)) (List κ)).order = .postOrder := rfl
    rw [PathVisitor.visit, PathVisitor.dispatchAt, if_neg (by simp [post]), pure_bind] at ok
    obtain ⟨_, -, ok⟩ := of_bind_eq_ok ok
    obtain ⟨lower, visited, ok⟩ := of_bind_eq_ok ok
    obtain ⟨below, gathered, rfl, each, all⟩ := visitAll_of_ok visited
    rw [PathVisitor.dispatchAt, if_pos post, dispatch_visitor] at ok
    obtain ⟨counters, completed, handed⟩ := of_bind_eq_ok ok
    rw [complete_apply] at completed
    obtain ⟨fed, feeds, stored⟩ := of_bind_eq_ok completed
    obtain ⟨_, -, kept⟩ := of_bind_eq_ok stored
    obtain rfl := Except.ok.inj kept
    rw [result_ofExcept] at feeds
    have arrived : path.element = fed := by
      cases above with
      | nil =>
        obtain rfl := Except.ok.inj handed
        rfl
      | cons parent above =>
        obtain ⟨folded, -, last⟩ := of_bind_eq_ok handed
        obtain rfl := Except.ok.inj last
        rfl
    rw [arrived]
    exact ⟨below, _, each, (congrArg (· >>= feedAt limit _ _) all).trans feeds⟩

end Formula

namespace Component

/-- A component at leaf depth that a crawl visits is a leaf of this crawl exactly if it holds no
component of its own kind. Otherwise the crawl visits components of this kind below it, and no
others, and the kind is one of those that nest.

Whatever formulas are run, a component ends with counters to which those of the visited children
were added, and which were then fed from its own measures if it is at leaf depth. At leaf depth there
are no visited children exactly if, again, it holds no component of its own kind; there its counters
are fed once, and else twice. -/
theorem leafDepth_is_leaf_iff {c d : Component} (wellFormed : c.WellFormed) {limit : DepthLimit}
    (visited : d ∈ c.visited limit) {κ : Type} [Counter κ] (catalog : Catalog)
    (formulas : List (Formula κ)) (traced : Bool) :
    (limit.IsLeafDepth d.kind →
      ((∀ e ∈ d.descendants, e ∉ c.visited limit) ↔ ∀ child ∈ d.children, child.kind ≠ d.kind) ∧
      ∀ e ∈ d.descendants, e ∈ c.visited limit → e.kind = d.kind ∧ d.kind.nests = true) ∧
    ∀ (above : List (Station (List κ))) (start : Counted (Store catalog)) (path : Path (List κ)),
      ((Formula.visitor formulas limit traced).visit d
          ⟨⟨d, formulas.map Formula.counter⟩, above⟩ start).result = .ok path →
        ∃ (below : List (List κ)) (store : Store catalog),
          List.Forall₂ (Formula.Gathers catalog formulas limit traced)
            (d.children.filter fun child => limit.Allows child.kind) below ∧
          (below.foldlM Formula.fold (formulas.map Formula.counter) >>= fun gathered =>
            if limit.IsLeafDepth d.kind then Formula.feed (Formula.leafOf store d) gathered
            else .ok gathered) = .ok path.element ∧
          (limit.IsLeafDepth d.kind →
            (below = [] ↔ ∀ child ∈ d.children, child.kind ≠ d.kind)) := by
  refine ⟨fun leaf => ⟨not_visited_below_iff wellFormed visited leaf, fun e below visited' =>
    kind_eq_of_mem_descendants wellFormed visited leaf below visited'⟩, ?_⟩
  intro above start path ok
  obtain ⟨below, store, each, fed⟩ := Formula.fed_of_visit ok
  refine ⟨below, store, each, fed, fun leaf => ?_⟩
  have own := wellFormed_of_mem_visited wellFormed visited
  rw [← List.length_eq_zero_iff, ← each.length_eq, List.length_eq_zero_iff,
    List.filter_eq_nil_iff]
  refine forall₂_congr fun child isChild => ?_
  rw [decide_eq_true_iff, allows_child_iff own leaf isChild]

end Component

namespace LeafDepthWitnesses

def metrics : Catalog := ⟨[⟨"ncloc", .int, "Lines"⟩, ⟨"total", .int, "All lines"⟩], by decide⟩

def inner : Component := .node ⟨"B", none, "B", .module ⟨3, none, none⟩⟩ []

def outer : Component := .node ⟨"A", none, "A", .module ⟨2, none, none⟩⟩ [inner]

/-- A module inside a module. -/
def tree : ComponentTree :=
  ⟨.node ⟨"P", none, "P", .project ⟨1, none, none⟩⟩ [outer], by decide, by decide⟩

/-- The outer module has two lines of its own and the inner one has three. -/
def measured : Store metrics :=
  ((∅ : Store metrics).put "A" "ncloc" ⟨"ncloc", .int 2⟩ ⟨_, rfl, rfl, .inr rfl⟩).put
    "B" "ncloc" ⟨"ncloc", .int 3⟩ ⟨_, rfl, rfl, .inr rfl⟩

def sums : List (Formula (SumCounter Int32)) := [Formula.sum "ncloc" "total"]

/-- A crawl that is limited to modules. -/
def run : Outcome (Store metrics) Nat :=
  Formula.rollUp sums .module false tree.root measured

theorem wellFormed_root : tree.root.WellFormed := by
  have inner_wellFormed : inner.WellFormed := .node (by simp) (by simp)
  have outer_wellFormed : outer.WellFormed := by
    refine .node (by decide) fun child mem => ?_
    obtain rfl := List.mem_singleton.mp mem
    exact inner_wellFormed
  refine .node (by decide) fun child mem => ?_
  obtain rfl := List.mem_singleton.mp mem
  exact outer_wellFormed

theorem outer_mem_visited : outer ∈ tree.root.visited .module :=
  List.mem_cons_of_mem _ List.mem_cons_self

/-- What lies at leaf depth can have visited components below it: the crawl enters the inner module,
and the outer one stores the sum of its own lines and those of the inner one. -/
theorem leafDepth_not_leaf :
    (¬ ∀ (c : Component) (limit : DepthLimit), c.WellFormed → limit.report.family = .report →
        limit.views.family = .views → ∀ d ∈ c.visited limit, limit.IsLeafDepth d.kind →
          ∀ e ∈ d.descendants, e ∉ c.visited limit) ∧
      run.events.filterMap Event.entered? = ["P", "A", "B"] ∧
      (run.state.find? "A" "total").map (fun m => m.value.whole?) = some (some 5) := by
  refine ⟨fun leaves => ?_, by decide +kernel, by decide +kernel⟩
  have below : inner ∈ outer.descendants := List.mem_cons_self
  have visited : inner ∈ tree.root.visited .module :=
    List.mem_cons_of_mem _ (List.mem_cons_of_mem _ List.mem_cons_self)
  exact leaves tree.root .module wellFormed_root rfl rfl outer outer_mem_visited rfl inner below
    visited

/-- The visit of the outer module in such a crawl. -/
def visit : Outcome (Counted (Store metrics)) (Path (List (SumCounter Int32))) :=
  (Formula.visitor sums .module false).visit outer ⟨⟨outer, sums.map Formula.counter⟩, []⟩
    ⟨measured, 0⟩

/-- The outer module lies at leaf depth and is no leaf: its counter ends with the sum of what the
inner one has gathered and of its own lines. -/
theorem leafDepth_is_leaf_iff_module :
    tree.root.WellFormed ∧ outer ∈ tree.root.visited .module ∧
      DepthLimit.module.IsLeafDepth outer.kind ∧
      (¬ ∀ e ∈ outer.descendants, e ∉ tree.root.visited .module) ∧
      ∃ path, visit.result = .ok path ∧ path.element.map SumCounter.total = [some 5] ∧
        ∃ (below : List (List (SumCounter Int32))) (store : Store metrics), below ≠ [] ∧
          (below.foldlM Formula.fold (sums.map Formula.counter) >>= fun gathered =>
            Formula.feed (Formula.leafOf store outer) gathered) = .ok path.element := by
  obtain ⟨leaf, fed⟩ := Component.leafDepth_is_leaf_iff wellFormed_root outer_mem_visited metrics
    sums false
  have atLeafDepth : DepthLimit.module.IsLeafDepth outer.kind := rfl
  have nested : ¬ ∀ child ∈ outer.children, child.kind ≠ outer.kind :=
    fun apart => apart inner List.mem_cons_self rfl
  refine ⟨wellFormed_root, outer_mem_visited, atLeafDepth,
    fun unvisited => nested ((leaf atLeafDepth).1.mp unvisited), ?_⟩
  have total : visit.result.toOption.map (fun path => path.element.map SumCounter.total) =
      some [some 5] := by decide +kernel
  cases result : visit.result with
  | error fault =>
    rw [result] at total
    contradiction
  | ok path =>
    rw [result] at total
    obtain ⟨below, store, -, feeds, only⟩ := fed [] ⟨measured, 0⟩ path result
    simp only [if_pos atLeafDepth] at feeds
    exact ⟨path, rfl, Option.some.inj total, below, store,
      fun empty => nested ((only atLeafDepth).mp empty), feeds⟩

end LeafDepthWitnesses

end Metrology
