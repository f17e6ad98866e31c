import Metrology.Proofs.Histories
import Metrology.Proofs.Routes

/-! # Measures below a component

What a store holds below a component can be had in several ways: by one walk that collects, child
by child, along a crawl to the leaves, or from the list of all records. In a tree of components
they come to the same measures.
-/

namespace Metrology

open Metrology.Action Component

variable {catalog : Catalog}

theorem DepthLimit.leaves_allows (kind : ComponentKind) : DepthLimit.leaves.Allows kind := by
  cases kind <;> decide

namespace Component

/-- A crawl to the leaves visits everything. -/
theorem visited_leaves (c : Component) : c.visited .leaves = c.preorder := by
  induction c with
  | node profile children ih =>
    rw [visited_eq_cons (DepthLimit.leaves_allows _), preorder, preorderAll_eq_flatMap]
    exact congrArg _ (List.flatMap_congr ih)

theorem preorder_eq_cons (c : Component) : c.preorder = c :: c.descendants := by
  cases c
  rfl

theorem children_sublist_descendants (c : Component) : c.children.Sublist c.descendants := by
  have heads : (c.children.flatMap fun child => [child]).Sublist (c.children.flatMap preorder) := by
    refine List.Sublist.flatMap_right _ fun child _ => ?_
    rw [preorder_eq_cons]
    exact (List.nil_sublist _).cons_cons child
  rwa [List.flatMap_singleton', ← preorderAll_eq_flatMap] at heads

theorem preorder_sublist_of_mem {c d : Component} (mem : d ∈ c.preorder) :
    d.preorder.Sublist c.preorder := by
  induction c with
  | node profile children ih =>
    rcases mem_preorder_iff.mp mem with rfl | below
    · exact .refl _
    · obtain ⟨child, isChild, mem⟩ := mem_descendants_iff.mp below
      have within : child.preorder.Sublist (children.flatMap preorder) :=
        List.sublist_flatten_of_mem (List.mem_map_of_mem isChild)
      rw [preorder, preorderAll_eq_flatMap]
      exact ((ih child isChild mem).trans within).cons _

end Component

/-- Below a component of a tree no key occurs twice. -/
theorem ComponentTree.nodup_descendants {tree : ComponentTree} {c : Component}
    (mem : c ∈ tree.components) : (c.descendants.map key).Nodup := by
  have whole := tree.nodup_keys.sublist ((preorder_sublist_of_mem mem).map key)
  rw [preorder_eq_cons, List.map_cons, List.nodup_cons] at whole
  exact whole.2

namespace Store

variable {store : Store catalog} {metric : String}

/-- The measures held for some components, where there are any. -/
def among (store : Store catalog) (metric : String) (cs : List Component) : List Measure :=
  cs.filterMap fun c => store.find? c.key metric

theorem among_cons (c : Component) (cs : List Component) :
    store.among metric (c :: cs) = (store.find? c.key metric).toList ++ store.among metric cs := by
  rw [among, List.filterMap_cons]
  cases store.find? c.key metric <;> rfl

theorem among_append (cs ds : List Component) :
    store.among metric (cs ++ ds) = store.among metric cs ++ store.among metric ds :=
  List.filterMap_append

theorem toList_collectAll {cs : List Component}
    (each : ∀ c ∈ cs, ∀ found,
      (store.collectBelow metric found c).toList = found.toList ++ store.among metric c.descendants)
    (found : Array Measure) :
    (store.collectAll metric found cs).toList =
      found.toList ++ store.among metric (preorderAll cs) := by
  induction cs generalizing found with
  | nil => exact (List.append_nil _).symm
  | cons c cs ih =>
    rw [collectAll, ih fun d mem => each d (List.mem_cons_of_mem _ mem), each c List.mem_cons_self,
      preorderAll, preorder_eq_cons, List.cons_append, among_cons, among_append]
    cases store.find? c.key metric <;> simp

/-- The walk collects the measures of all descendants, one after the other. -/
theorem toList_collectBelow (c : Component) (found : Array Measure) :
    (store.collectBelow metric found c).toList =
      found.toList ++ store.among metric c.descendants := by
  induction c generalizing found with
  | node profile children ih =>
    rw [collectBelow]
    exact toList_collectAll ih found

/-! ## By metrics of the catalog -/

section Known

variable {declared : Metric}

theorem ofDescendants_eq_ok (known : catalog.find? metric = some declared) (c : Component) :
    store.ofDescendants c metric = .ok (store.among metric c.descendants) := by
  rw [ofDescendants, known]
  exact congrArg Except.ok (toList_collectBelow c #[])

theorem ofChildren_eq_ok (known : catalog.find? metric = some declared) (c : Component) :
    store.ofChildren c metric = .ok (store.among metric c.children) := by
  rw [ofChildren, known]
  rfl

/-- Below a component are its children, each followed by what is below it. -/
theorem ofDescendants_eq_mapM (known : catalog.find? metric = some declared) (c : Component) :
    store.ofDescendants c metric =
      (c.children.mapM fun child : Component => do
        let own ← store.get child.key metric
        let below ← store.ofDescendants child metric
        return own.toList ++ below).map List.flatten := by
  have each (child : Component) :
      (do
        let own ← store.get child.key metric
        let below ← store.ofDescendants child metric
        return own.toList ++ below) =
      (pure (store.among metric child.preorder) : Except Fault (List Measure)) := by
    rw [get_of_find? known, ofDescendants_eq_ok known, preorder_eq_cons, among_cons]
    rfl
  simp only [each, List.mapM_pure]
  rw [ofDescendants_eq_ok known, descendants, preorderAll_eq_flatMap]
  exact congrArg Except.ok (List.filterMap_flatMap ..)

end Known

/-! ## By records -/

/-- The record that the store has for a component, if any. -/
def recordOf (store : Store catalog) (metric : String) (c : Component) : Option Record :=
  (store.find? c.key metric).map fun measure => ⟨c.key, metric, measure.value⟩

theorem nodup_records (store : Store catalog) : store.records.Nodup := by
  refine store.records_pairwise_before.imp fun before => ?_
  rintro rfl
  rcases before with less | ⟨-, less⟩ <;> exact lt_irrefl _ less

theorem nodup_filterMap_recordOf {cs : List Component} (nodup : (cs.map key).Nodup) :
    (cs.filterMap (store.recordOf metric)).Nodup := by
  refine List.pairwise_filterMap.mpr ((List.pairwise_map.mp nodup).imp fun differ => ?_)
  rintro _ told _ told' rfl
  obtain ⟨_, -, rfl⟩ := Option.map_eq_some_iff.mp told
  obtain ⟨_, -, same⟩ := Option.map_eq_some_iff.mp told'
  exact differ (congrArg Record.component same).symm

theorem mem_filterMap_recordOf_iff {cs : List Component} {record : Record} :
    record ∈ cs.filterMap (store.recordOf metric) ↔
      record ∈ store.records ∧ record.metric = metric ∧ record.component ∈ cs.map key := by
  obtain ⟨component, metric', value⟩ := record
  rw [List.mem_filterMap, mem_records_iff, List.mem_map]
  constructor
  · rintro ⟨c, mem, told⟩
    obtain ⟨measure, held, same⟩ := Option.map_eq_some_iff.mp told
    obtain ⟨rfl, rfl, rfl⟩ := Record.mk.inj same
    exact ⟨⟨measure, held, rfl⟩, rfl, c, mem, rfl⟩
  · rintro ⟨⟨measure, held, rfl⟩, rfl, c, mem, rfl⟩
    exact ⟨c, mem, congrArg _ held⟩

/-- Where no key occurs twice, each measure is that of a record of its own. -/
theorem length_among {cs : List Component} (nodup : (cs.map key).Nodup) :
    (store.among metric cs).length =
      store.records.countP fun record =>
        record.metric = metric ∧ record.component ∈ cs.map key := by
  have perm : (cs.filterMap (store.recordOf metric)).Perm
      (store.records.filter fun record =>
        record.metric = metric ∧ record.component ∈ cs.map key) := by
    refine (List.perm_ext_iff_of_nodup (nodup_filterMap_recordOf nodup)
      (store.nodup_records.filter _)).mpr fun record => ?_
    rw [mem_filterMap_recordOf_iff, List.mem_filter, decide_eq_true_iff]
  rw [List.countP_eq_length_filter, ← perm.length_eq, among, List.length_filterMap_eq_countP,
    List.length_filterMap_eq_countP]
  simp only [recordOf, Option.isSome_map]

/-- For every component of a tree, the measures of a metric below it are those of the components
that a crawl to the leaves comes to after it, in the same order. They are put together from those
of the children and those below the children, contain the measures of the children in their order,
and are as many as there are records of the metric for components below. -/
theorem ofDescendants_agrees {tree : ComponentTree} {c : Component} (mem : c ∈ tree.components)
    (store : Store catalog) {metric : String} (known : catalog.contains metric = true) :
    ∃ found, store.ofDescendants c metric = .ok found ∧
      (∀ (σ : Type) (v : Visitor σ) (s : σ), v.order = .preOrder → v.limit = .leaves →
        let calls := (v.observed.crawl c ⟨fun _ => s, []⟩).state.calls
        (∀ call ∈ calls, call.result = .ok ()) → ∃ later,
          calls.map Call.invocation = (c :: later).flatMap callbacks ∧
          found = later.filterMap fun d => store.find? d.key metric) ∧
      (c.children.mapM fun child : Component => do
        let own ← store.get child.key metric
        let below ← store.ofDescendants child metric
        return own.toList ++ below).map List.flatten = .ok found ∧
      (∃ nearest, store.ofChildren c metric = .ok nearest ∧ nearest.Sublist found) ∧
      found.length = store.records.countP fun record =>
        record.metric = metric ∧ record.component ∈ c.descendants.map key := by
  obtain ⟨declared, known⟩ := Catalog.exists_find?_of_contains known
  have found : store.ofDescendants c metric = _ := ofDescendants_eq_ok known c
  refine ⟨store.among metric c.descendants, found, ?_, ?_, ?_, ?_⟩
  · rintro σ v s order limit calls succeed
    refine ⟨c.descendants, ?_, rfl⟩
    rw [(v.map_invocation_of_succeed c s succeed).2, Visitor.agenda, order, limit, inOrder,
      visited_leaves, preorder_eq_cons]
  · rw [← ofDescendants_eq_mapM known, found]
  · exact ⟨_, ofChildren_eq_ok known c, (children_sublist_descendants c).filterMap _⟩
  · exact length_among (ComponentTree.nodup_descendants mem)

end Store

namespace DescendantWitnesses

open HistoryWitnesses RouteWitnesses

def tree : ComponentTree := ⟨root, by decide, by decide⟩

/-- The project, the directory in it and the file beside it have lines. The file inside has none. -/
def store : Store metrics :=
  (∅ : Store metrics).after
    ([(root, 27), (directory, 22), (outer, 5)].map fun (c, count) =>
      ⟨.add, c, "ncloc", ⟨"ncloc", .int count⟩⟩)

def walker : Visitor Unit where
  order := .preOrder
  limit := .leaves

/-- Three components stand below the project, and two of them have lines. -/
theorem ofDescendants_agrees_project :
    root ∈ tree.components ∧ metrics.contains "ncloc" = true ∧
    ∃ found, store.ofDescendants root "ncloc" = .ok found ∧ found.length = 2 ∧
      ∃ later, (walker.observed.crawl root ⟨fun _ => (), []⟩).state.calls.map Call.invocation =
          (root :: later).flatMap callbacks ∧ later.length = 3 ∧
        found = later.filterMap fun d => store.find? d.key "ncloc" := by
  have mem : root ∈ tree.components := self_mem_preorder root
  have known : metrics.contains "ncloc" = true := by decide +kernel
  obtain ⟨found, ok, along, -, -, counted⟩ := Store.ofDescendants_agrees mem store known
  have two : found.length = 2 := by
    rw [counted]
    decide +kernel
  have succeed : ∀ call ∈ (walker.observed.crawl root ⟨fun _ => (), []⟩).state.calls,
      call.result = .ok () := by decide +kernel
  obtain ⟨later, calls, same⟩ := along Unit walker () rfl rfl succeed
  have eight : (walker.observed.crawl root ⟨fun _ => (), []⟩).state.calls.length = 8 := by
    decide +kernel
  have twice : later.length * 2 = 6 := by
    simpa [eight, callbacks] using congrArg List.length calls
  exact ⟨mem, known, found, ok, two, later, calls, by omega, same⟩

end DescendantWitnesses

end Metrology
