import Mathlib.Data.List.Flatten
import Mathlib.Data.List.Nodup
import Mathlib.Data.List.Perm.Basic
import Metrology.Component.Tree
import Metrology.Component.WellFormed
import Metrology.Crawl.Visitor

/-! # The order of a crawl

The components that a crawl visits as one list. A pre-order crawl is a loop over this list. In a
well-formed tree the list holds all components within the depth limit, and no component of a tree
comes before its parent.
-/

namespace Metrology

namespace ComponentKind

theorem near_of_contains {parent child : ComponentKind} (placed : parent.Contains child) :
    child.family = parent.family ∧ parent.depth ≤ child.depth := by
  rcases placed with ⟨sameFamily, deeper⟩ | ⟨rfl, -⟩
  · exact ⟨sameFamily, Nat.le_of_lt deeper⟩
  · exact ⟨rfl, Nat.le_refl _⟩

end ComponentKind

namespace DepthLimit

/-- The depth limits are closed towards the root: what may contain an allowed kind is allowed. -/
theorem allows_of_contains {limit : DepthLimit} {parent child : ComponentKind}
    (placed : parent.Contains child) (allowed : limit.Allows child) : limit.Allows parent := by
  have near := ComponentKind.near_of_contains placed
  have sameLimit : limit.limitFor parent = limit.limitFor child := by
    simp only [limitFor, near.1]
  intro tooDeep
  rw [sameLimit] at tooDeep
  exact allowed ⟨near.1.trans tooDeep.1, Nat.lt_of_lt_of_le tooDeep.2 near.2⟩

theorem allows_of_isLeafDepth {limit : DepthLimit} {kind : ComponentKind}
    (leaf : limit.IsLeafDepth kind) : limit.Allows kind := by
  intro tooDeep
  have deeper := tooDeep.2
  rw [← leaf] at deeper
  exact Nat.lt_irrefl _ deeper

end DepthLimit

namespace Component

/-- What holds of a component whenever it holds of its children holds of every component. -/
@[induction_eliminator]
theorem induction {P : Component → Prop}
    (node : ∀ (profile : Profile) (children : List Component), (∀ child ∈ children, P child) →
      P (.node profile children)) (c : Component) : P c :=
  @Component.rec P (fun cs => ∀ c ∈ cs, P c) node
    (fun _ mem => absurd mem List.not_mem_nil)
    (fun _ _ head tail => List.forall_mem_cons.mpr ⟨head, tail⟩) c

theorem preorderAll_eq_flatMap (cs : List Component) : preorderAll cs = cs.flatMap preorder := by
  induction cs with
  | nil => rfl
  | cons c cs ih => rw [preorderAll, ih, List.flatMap_cons]

theorem self_mem_preorder (c : Component) : c ∈ c.preorder := by
  cases c
  exact List.mem_cons_self

/-- With a component the list of its tree holds the children of the component. -/
theorem child_mem_preorder {c d child : Component} (mem : d ∈ c.preorder)
    (isChild : child ∈ d.children) : child ∈ c.preorder := by
  induction c with
  | node profile children ih =>
    rw [preorder, preorderAll_eq_flatMap] at mem ⊢
    apply List.mem_cons_of_mem
    rcases List.mem_cons.mp mem with rfl | mem
    · exact List.mem_flatMap.mpr ⟨child, isChild, self_mem_preorder child⟩
    · obtain ⟨top, topMem, mem⟩ := List.mem_flatMap.mp mem
      exact List.mem_flatMap.mpr ⟨top, topMem, ih top topMem mem⟩

theorem child_key_ne_of_nodup {c d child : Component} (nodup : (c.preorder.map key).Nodup)
    (mem : d ∈ c.preorder) (isChild : child ∈ d.children) : d.key ≠ child.key := by
  induction c with
  | node profile children ih =>
    rw [preorder, preorderAll_eq_flatMap, List.map_cons, List.nodup_cons] at nodup
    obtain ⟨fresh, nodup⟩ := nodup
    rw [preorder, preorderAll_eq_flatMap] at mem
    rcases List.mem_cons.mp mem with rfl | mem
    · intro same
      apply fresh
      rw [same]
      exact List.mem_map_of_mem
        (List.mem_flatMap.mpr ⟨child, isChild, self_mem_preorder child⟩)
    · obtain ⟨top, topMem, mem⟩ := List.mem_flatMap.mp mem
      rw [List.map_flatMap, List.nodup_flatMap] at nodup
      exact ih top topMem (nodup.1 top topMem) mem

/-- Where keys are distinct, no component comes before its parent. -/
theorem pairwise_not_child {c : Component} (nodup : (c.preorder.map key).Nodup) :
    c.preorder.Pairwise fun earlier later => ∀ child ∈ later.children, earlier.key ≠ child.key := by
  induction c with
  | node profile children ih =>
    rw [preorder, preorderAll_eq_flatMap, List.map_cons, List.nodup_cons] at nodup
    obtain ⟨fresh, nodup⟩ := nodup
    rw [preorder, preorderAll_eq_flatMap, List.pairwise_cons]
    constructor
    · intro later mem child isChild same
      obtain ⟨top, topMem, mem⟩ := List.mem_flatMap.mp mem
      apply fresh
      rw [same]
      exact List.mem_map_of_mem
        (List.mem_flatMap.mpr ⟨top, topMem, child_mem_preorder mem isChild⟩)
    · rw [List.map_flatMap, List.nodup_flatMap] at nodup
      rw [List.pairwise_flatMap]
      refine ⟨fun top topMem => ih top topMem (nodup.1 top topMem), ?_⟩
      refine nodup.2.imp ?_
      intro a b disjoint earlier earlierMem later laterMem child isChild same
      apply disjoint (List.mem_map_of_mem earlierMem)
      rw [same]
      exact List.mem_map_of_mem (child_mem_preorder laterMem isChild)

/-! ## The visited components -/

mutual

/-- The components that a crawl from here visits, each before its children. -/
def visited (limit : DepthLimit) : Component → List Component
  | .node profile children =>
    if limit.Allows profile.role.kind then .node profile children :: visitedAll limit children
    else []

/-- The components that crawls from all of these visit. -/
def visitedAll (limit : DepthLimit) : List Component → List Component
  | [] => []
  | c :: cs => visited limit c ++ visitedAll limit cs

end

theorem visitedAll_eq_flatMap (limit : DepthLimit) (cs : List Component) :
    visitedAll limit cs = cs.flatMap (visited limit) := by
  induction cs with
  | nil => rfl
  | cons c cs ih => rw [visitedAll, ih, List.flatMap_cons]

theorem visited_eq_nil {limit : DepthLimit} {c : Component} (denied : ¬ limit.Allows c.kind) :
    c.visited limit = [] := by
  cases c
  exact if_neg denied

theorem visited_eq_cons {limit : DepthLimit} {c : Component} (allowed : limit.Allows c.kind) :
    c.visited limit = c :: c.children.flatMap (visited limit) := by
  cases c with
  | node profile children =>
    rw [← visitedAll_eq_flatMap]
    exact if_pos allowed

/-- A crawl visits components of the tree only, each once and in their order. -/
theorem visited_sublist_preorder (limit : DepthLimit) (c : Component) :
    (c.visited limit).Sublist c.preorder := by
  induction c with
  | node profile children ih =>
    by_cases allowed : limit.Allows (node profile children).kind
    · rw [visited_eq_cons allowed, preorder, preorderAll_eq_flatMap]
      exact (List.Sublist.flatMap_right children ih).cons_cons _
    · rw [visited_eq_nil allowed]
      exact List.nil_sublist _

theorem allows_of_mem_visited {limit : DepthLimit} {c d : Component} (mem : d ∈ c.visited limit) :
    limit.Allows d.kind := by
  induction c with
  | node profile children ih =>
    by_cases allowed : limit.Allows (node profile children).kind
    · rw [visited_eq_cons allowed] at mem
      rcases List.mem_cons.mp mem with rfl | mem
      · exact allowed
      · obtain ⟨top, topMem, mem⟩ := List.mem_flatMap.mp mem
        exact ih top topMem mem
    · rw [visited_eq_nil allowed] at mem
      contradiction

/-- Below a component that is too deep, in a well-formed tree, everything is too deep. -/
theorem not_allows_of_mem_preorder {limit : DepthLimit} {c d : Component}
    (wellFormed : c.WellFormed) (denied : ¬ limit.Allows c.kind) (mem : d ∈ c.preorder) :
    ¬ limit.Allows d.kind := by
  induction c with
  | node profile children ih =>
    cases wellFormed with
    | node placed below =>
      rw [preorder, preorderAll_eq_flatMap] at mem
      rcases List.mem_cons.mp mem with rfl | mem
      · exact denied
      · obtain ⟨top, topMem, mem⟩ := List.mem_flatMap.mp mem
        apply ih top topMem (below top topMem) _ mem
        intro allowed
        exact denied (DepthLimit.allows_of_contains (placed top topMem) allowed)

/-- In a well-formed tree a crawl visits all components within its limit. -/
theorem visited_eq_filter (limit : DepthLimit) {c : Component} (wellFormed : c.WellFormed) :
    c.visited limit = c.preorder.filter fun d => limit.Allows d.kind := by
  induction c with
  | node profile children ih =>
    by_cases allowed : limit.Allows (node profile children).kind
    · cases wellFormed with
      | node placed below =>
        rw [visited_eq_cons allowed, preorder, preorderAll_eq_flatMap,
          List.filter_cons_of_pos (by simpa using allowed), List.filter_flatMap]
        congr 1
        exact List.flatMap_congr fun child mem => ih child mem (below child mem)
    · rw [visited_eq_nil allowed, eq_comm, List.filter_eq_nil_iff]
      intro d mem
      simpa using not_allows_of_mem_preorder wellFormed allowed mem

/-! ## The visited components from the leaves up -/

mutual

/-- The components that a crawl from here visits, each after its children. -/
def visitedUp (limit : DepthLimit) : Component → List Component
  | .node profile children =>
    if limit.Allows profile.role.kind then visitedUpAll limit children ++ [.node profile children]
    else []

/-- The components that crawls from all of these visit, each after its children. -/
def visitedUpAll (limit : DepthLimit) : List Component → List Component
  | [] => []
  | c :: cs => visitedUp limit c ++ visitedUpAll limit cs

end

theorem visitedUpAll_eq_flatMap (limit : DepthLimit) (cs : List Component) :
    visitedUpAll limit cs = cs.flatMap (visitedUp limit) := by
  induction cs with
  | nil => rfl
  | cons c cs ih => rw [visitedUpAll, ih, List.flatMap_cons]

theorem visitedUp_eq_nil {limit : DepthLimit} {c : Component} (denied : ¬ limit.Allows c.kind) :
    c.visitedUp limit = [] := by
  cases c
  exact if_neg denied

theorem visitedUp_eq_append {limit : DepthLimit} {c : Component} (allowed : limit.Allows c.kind) :
    c.visitedUp limit = c.children.flatMap (visitedUp limit) ++ [c] := by
  cases c with
  | node profile children =>
    rw [← visitedUpAll_eq_flatMap]
    exact if_pos allowed

/-- From the leaves up a crawl visits the same components. -/
theorem visitedUp_perm_visited (limit : DepthLimit) (c : Component) :
    (c.visitedUp limit).Perm (c.visited limit) := by
  induction c with
  | node profile children ih =>
    by_cases allowed : limit.Allows (node profile children).kind
    · rw [visitedUp_eq_append allowed, visited_eq_cons allowed]
      exact (List.perm_append_singleton _ _).trans ((List.Perm.flatMap_left children ih).cons _)
    · rw [visitedUp_eq_nil allowed, visited_eq_nil allowed]

end Component

namespace ComponentTree

theorem eq_of_key_eq {tree : ComponentTree} {c d : Component} (mem : c ∈ tree.components)
    (mem' : d ∈ tree.components) (same : c.key = d.key) : c = d :=
  List.inj_on_of_nodup_map tree.nodup_keys mem mem' same

theorem nodup_visited (tree : ComponentTree) (limit : DepthLimit) :
    ((tree.root.visited limit).map Component.key).Nodup :=
  tree.nodup_keys.sublist ((Component.visited_sublist_preorder limit tree.root).map Component.key)

theorem nodup_visitedUp (tree : ComponentTree) (limit : DepthLimit) :
    ((tree.root.visitedUp limit).map Component.key).Nodup :=
  ((Component.visitedUp_perm_visited limit tree.root).map Component.key).nodup_iff.mpr
    (tree.nodup_visited limit)

end ComponentTree

/-! ## Pre-order crawls -/

section Loops

variable {m : Type → Type} [Monad m] {α β : Type}

theorem forM_congr_of_mem {xs : List α} {f g : α → m Unit} (same : ∀ x ∈ xs, f x = g x) :
    forM xs f = forM xs g := by
  induction xs with
  | nil => rfl
  | cons x xs ih =>
    rw [List.forM_cons, List.forM_cons, same x List.mem_cons_self,
      ih fun y mem => same y (List.mem_cons_of_mem _ mem)]

/-- A loop over several lists in a row is a loop of loops. -/
theorem forM_flatMap_eq [LawfulMonad m] (xs : List α) (g : α → List β) (f : β → m Unit) :
    forM (xs.flatMap g) f = forM xs fun x => forM (g x) f := by
  induction xs with
  | nil => rfl
  | cons x xs ih => rw [List.flatMap_cons, List.forM_append, ih, List.forM_cons]

end Loops

namespace Visitor

variable {σ : Type}

/-- What a pre-order crawl does when it comes to a component. -/
def round (v : Visitor σ) (c : Component) : Action σ Unit := do
  Action.emit (.visiting c.key none)
  v.dispatch c

/-- The allowed ones of several components are visited by crawls from each of them. -/
theorem visitAll_eq_forM_crawl (v : Visitor σ) (cs : List Component) :
    v.visitAll cs = forM cs v.crawl := by
  induction cs with
  | nil => rfl
  | cons c cs ih =>
    rw [visitAll, List.forM_cons, crawl, ih]
    by_cases allowed : v.limit.Allows c.kind
    · rw [if_pos allowed, if_pos allowed]
    · rw [if_neg allowed, if_neg allowed, pure_bind]

theorem visit_of_preOrder {v : Visitor σ} (pre : v.order = .preOrder) (c : Component) :
    v.visit c = v.round c >>= fun _ => v.visitAll c.children := by
  cases c with
  | node profile children =>
    rw [visit, dispatchAt, dispatchAt, if_pos pre, if_neg (by simp [pre]), round]
    simp only [bind_assoc, bind_pure_unit]
    rfl

/-- A pre-order crawl is a loop over the components it visits. -/
theorem crawl_eq_forM_visited {v : Visitor σ} (pre : v.order = .preOrder) (c : Component) :
    v.crawl c = forM (c.visited v.limit) v.round := by
  induction c with
  | node profile children ih =>
    rw [crawl]
    by_cases allowed : v.limit.Allows (Component.node profile children).kind
    · rw [if_pos allowed, visit_of_preOrder pre, Component.visited_eq_cons allowed,
        List.forM_cons, visitAll_eq_forM_crawl, forM_flatMap_eq]
      exact congrArg _ (funext fun _ => forM_congr_of_mem ih)
    · rw [if_neg allowed, Component.visited_eq_nil allowed, List.forM_nil]

end Visitor

end Metrology
