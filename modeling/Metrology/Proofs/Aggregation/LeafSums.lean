import Metrology.Proofs.Aggregation.Whole
import Metrology.Proofs.CrawlOrder

/-! # Sums over the leaves of a crawl

The exact sum of the numbers that the leaves of a crawl hold at or below a component, and how it is
put together from the sums of the children and the number of the component itself.
-/

namespace Metrology

variable {catalog : Catalog}

/-- The whole number held for a component and a metric. -/
def Store.whole? (store : Store catalog) (component metric : String) : Option Int :=
  (store.find? component metric).bind fun measure => measure.value.whole?

namespace Component

section Spec

variable (limit : DepthLimit) (store : Store catalog) (metric : String)

/-- The numbers held by the leaves of a crawl that lie at or below a component. -/
def leafNumbers (c : Component) : List Int :=
  (c.preorder.filter fun d => limit.Allows d.kind ∧ limit.IsLeafDepth d.kind).filterMap fun d =>
    store.whole? d.key metric

/-- The sum of these numbers, absent where there are none. -/
def leafSum? (c : Component) : Option Int :=
  exactSum? (c.leafNumbers limit store metric)

/-- The sums of the visited ones among the components, those that are absent left out. -/
def leafSums (cs : List Component) : List Int :=
  (cs.filter fun c => limit.Allows c.kind).filterMap (leafSum? limit store metric)

/-- The number that a component has as a leaf. -/
def ownNumber? (c : Component) : Option Int :=
  if limit.IsLeafDepth c.kind then store.whole? c.key metric else none

/-- What is added up at a component: the sums of its visited children, in order, and its own number
if it is a leaf. -/
def summands (c : Component) : List Int :=
  leafSums limit store metric c.children ++ (c.ownNumber? limit store metric).toList

/-- At the component or below it some partial sum leaves the type. -/
def Overflows (τ : Type) [Whole τ] (c : Component) : Prop :=
  ∃ d ∈ c.preorder, limit.Allows d.kind ∧ LeavesRange τ 0 (d.summands limit store metric)

end Spec

variable {limit : DepthLimit} {store : Store catalog} {metric : String}

theorem leafNumbers_node (profile : Profile) (children : List Component) :
    (node profile children).leafNumbers limit store metric =
      ((node profile children).ownNumber? limit store metric).toList ++
        children.flatMap (leafNumbers limit store metric) := by
  have below : (children.flatMap preorder).filter (fun d =>
      limit.Allows d.kind ∧ limit.IsLeafDepth d.kind) =
      children.flatMap fun child => child.preorder.filter fun d =>
        limit.Allows d.kind ∧ limit.IsLeafDepth d.kind := List.filter_flatMap
  rw [leafNumbers, preorder, preorderAll_eq_flatMap, List.filter_cons, below, ownNumber?]
  by_cases leaf : limit.IsLeafDepth (node profile children).kind
  · have allowed := DepthLimit.allows_of_isLeafDepth leaf
    rw [if_pos (by simp [leaf, allowed]), if_pos leaf, List.filterMap_cons, List.filterMap_flatMap]
    cases store.whole? (node profile children).key metric <;> rfl
  · rw [if_neg (by simp [leaf]), if_neg leaf, List.filterMap_flatMap]
    rfl

theorem leafNumbers_eq_nil {c : Component} (wellFormed : c.WellFormed)
    (denied : ¬ limit.Allows c.kind) : c.leafNumbers limit store metric = [] := by
  have none : (c.preorder.filter fun d => limit.Allows d.kind ∧ limit.IsLeafDepth d.kind) = [] := by
    rw [List.filter_eq_nil_iff]
    intro d mem
    simp [not_allows_of_mem_preorder wellFormed denied mem]
  rw [leafNumbers, none, List.filterMap_nil]

/-- The sum at a component is that of its summands. -/
theorem exactSum?_summands {c : Component} (wellFormed : c.WellFormed) :
    exactSum? (c.summands limit store metric) = c.leafSum? limit store metric := by
  cases wellFormed with
  | @node profile children placed below =>
    have visited : (children.filter fun child => limit.Allows child.kind).flatMap
        (leafNumbers limit store metric) = children.flatMap (leafNumbers limit store metric) := by
      clear placed
      induction children with
      | nil => rfl
      | cons child children ih =>
        have rest := ih fun c mem => below c (List.mem_cons_of_mem _ mem)
        by_cases allowed : limit.Allows child.kind
        · rw [List.filter_cons_of_pos (by simpa using allowed), List.flatMap_cons, rest,
            List.flatMap_cons]
        · rw [List.filter_cons_of_neg (by simpa using allowed), rest, List.flatMap_cons,
            leafNumbers_eq_nil (below child List.mem_cons_self) allowed, List.nil_append]
    have sums : exactSum? (leafSums limit store metric children) =
        exactSum? (children.flatMap (leafNumbers limit store metric)) := by
      rw [← visited]
      exact exactSum?_filterMap _ _
    rw [leafSum?, leafNumbers_node, exactSum?_append_comm]
    exact exactSum?_append_congr sums _

theorem leafSums_cons_of_allows {c : Component} (allowed : limit.Allows c.kind)
    (cs : List Component) :
    leafSums limit store metric (c :: cs) =
      (c.leafSum? limit store metric).toList ++ leafSums limit store metric cs := by
  rw [leafSums, List.filter_cons_of_pos (by simpa using allowed), List.filterMap_cons]
  cases c.leafSum? limit store metric <;> rfl

theorem leafSums_cons_of_not_allows {c : Component} (denied : ¬ limit.Allows c.kind)
    (cs : List Component) :
    leafSums limit store metric (c :: cs) = leafSums limit store metric cs := by
  rw [leafSums, List.filter_cons_of_neg (by simpa using denied)]
  rfl

/-- A sum overflows at a component or below one of its visited children. -/
theorem overflows_node_iff {τ : Type} [Whole τ] {profile : Profile} {children : List Component}
    (wellFormed : ∀ child ∈ children, child.WellFormed)
    (allowed : limit.Allows (node profile children).kind) :
    (node profile children).Overflows limit store metric τ ↔
      (∃ child ∈ children, limit.Allows child.kind ∧ child.Overflows limit store metric τ) ∨
        LeavesRange τ 0 ((node profile children).summands limit store metric) := by
  constructor
  · rintro ⟨d, mem, visited, leaves⟩
    rw [preorder, preorderAll_eq_flatMap] at mem
    rcases List.mem_cons.mp mem with rfl | mem
    · exact .inr leaves
    · obtain ⟨child, isChild, mem⟩ := List.mem_flatMap.mp mem
      refine .inl ⟨child, isChild, ?_, d, mem, visited, leaves⟩
      by_cases entered : limit.Allows child.kind
      · exact entered
      · exact absurd visited (not_allows_of_mem_preorder (wellFormed child isChild) entered mem)
  · rintro (⟨child, isChild, -, d, mem, visited, leaves⟩ | leaves)
    · refine ⟨d, ?_, visited, leaves⟩
      rw [preorder, preorderAll_eq_flatMap]
      exact List.mem_cons_of_mem _ (List.mem_flatMap.mpr ⟨child, isChild, mem⟩)
    · exact ⟨_, self_mem_preorder _, allowed, leaves⟩

end Component

end Metrology
