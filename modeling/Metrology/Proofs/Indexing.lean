import Metrology.Proofs.CrawlOrder

/-! # Finding components

The index of a tree is exact. It is refused precisely where a key or a reference occurs twice, and
then for the first component that clashes; otherwise every component is found under its key at its
own place in the tree, every report component under its reference, and nothing else is found.
-/

namespace Metrology

namespace Component

/-! ## Places in a tree -/

theorem mem_placedAll_iff {path : List Nat} {position : Nat} {cs : List Component}
    {entry : List Nat × Component} :
    entry ∈ placedAll path position cs ↔
      ∃ (i : Nat) (c : Component), cs[i]? = some c ∧ entry ∈ c.placed (path ++ [position + i]) := by
  induction cs generalizing position with
  | nil => simp [placedAll]
  | cons c cs ih =>
    rw [placedAll, List.mem_append, ih]
    constructor
    · rintro (first | ⟨i, d, isChild, mem⟩)
      · exact ⟨0, c, rfl, first⟩
      · exact ⟨i + 1, d, isChild, by rwa [Nat.add_left_comm, Nat.add_comm]⟩
    · rintro ⟨i, d, isChild, mem⟩
      cases i with
      | zero =>
        obtain rfl := Option.some.inj isChild
        exact .inl mem
      | succ i => exact .inr ⟨i, d, isChild, by rwa [Nat.add_assoc, Nat.add_comm 1]⟩

/-- The components are listed with the paths that lead to them. -/
theorem mem_placed_iff {path path' : List Nat} {c d : Component} :
    (path', d) ∈ c.placed path ↔ ∃ below, path' = path ++ below ∧ c.follow? below = some d := by
  induction c generalizing path with
  | node profile children ih =>
    rw [placed, List.mem_cons, mem_placedAll_iff]
    constructor
    · rintro (here | ⟨i, child, isChild, mem⟩)
      · obtain ⟨rfl, rfl⟩ := Prod.mk.inj here
        exact ⟨[], (List.append_nil _).symm, rfl⟩
      · obtain ⟨below, rfl, leads⟩ := (ih child (List.mem_of_getElem? isChild)).mp mem
        refine ⟨i :: below, by simp, ?_⟩
        exact Option.bind_eq_some_iff.mpr ⟨child, isChild, leads⟩
    · rintro ⟨below, rfl, leads⟩
      cases below with
      | nil =>
        obtain rfl := Option.some.inj leads
        exact .inl (by rw [List.append_nil])
      | cons i below =>
        obtain ⟨child, isChild, leads⟩ := Option.bind_eq_some_iff.mp leads
        refine .inr ⟨i, child, isChild, ?_⟩
        exact (ih child (List.mem_of_getElem? isChild)).mpr ⟨below, by simp, leads⟩

theorem mem_placed_nil_iff {path : List Nat} {c d : Component} :
    (path, d) ∈ c.placed [] ↔ c.follow? path = some d := by
  simp [mem_placed_iff]

/-- The components of a tree are those that some path leads to. -/
theorem mem_preorder_iff_follow? {c d : Component} :
    d ∈ c.preorder ↔ ∃ path, c.follow? path = some d := by
  rw [← map_snd_placed [], List.mem_map]
  simp [mem_placed_nil_iff]

end Component

/-! ## Looking up -/

namespace ComponentTree

theorem index_lists (tree : ComponentTree) : tree.index.Lists (tree.root.placed []) := by
  unfold index
  split
  · rename_i accepted
    exact Index.lists_of_ofRoot accepted
  · rename_i refused
    exact absurd (Index.firstClash_of_ofRoot refused)
      (Component.not_firstClash tree.nodup_keys tree.nodup_references _)

/-- The index holds a path for a key precisely if the path leads to the component of that key. -/
theorem getElem?_paths_index (tree : ComponentTree) (key : String) (path : List Nat) :
    tree.index.paths[key]? = some path ↔ ∃ c, tree.root.follow? path = some c ∧ c.key = key := by
  rw [tree.index_lists.getElem?_paths]
  simp only [Component.mem_placed_nil_iff]

theorem getElem?_keys_index (tree : ComponentTree) (reference : Int32) (key : String) :
    tree.index.keys[reference]? = some key ↔
      ∃ path c, tree.root.follow? path = some c ∧ c.reference? = some reference ∧ c.key = key := by
  rw [tree.index_lists.getElem?_keys, Component.map_snd_placed]
  simp only [Component.mem_preorder_iff_follow?]
  constructor
  · rintro ⟨c, ⟨path, leads⟩, own⟩
    exact ⟨path, c, leads, own⟩
  · rintro ⟨path, c, leads, own⟩
    exact ⟨c, ⟨path, leads⟩, own⟩

variable {tree : ComponentTree} {path : List Nat} {c : Component}

theorem byKey_of_follow? (leads : tree.root.follow? path = some c) : tree.byKey c.key = .ok c := by
  have held := (tree.getElem?_paths_index c.key path).mpr ⟨c, leads, rfl⟩
  rw [byKey, held, Option.bind_some, leads]

theorem byReference_of_follow? {reference : Int32} (leads : tree.root.follow? path = some c)
    (own : c.reference? = some reference) : tree.byReference reference = .ok c := by
  have held := (tree.getElem?_keys_index reference c.key).mpr ⟨path, c, leads, own, rfl⟩
  rw [byReference, held]
  exact byKey_of_follow? leads

/-- Only one path leads to a component of a given key. -/
theorem path_eq_of_key_eq {path' : List Nat} {d : Component}
    (leads : tree.root.follow? path = some c) (leads' : tree.root.follow? path' = some d)
    (same : d.key = c.key) : path' = path := by
  have held := (tree.getElem?_paths_index c.key path).mpr ⟨c, leads, rfl⟩
  have held' := (tree.getElem?_paths_index c.key path').mpr ⟨d, leads', same⟩
  exact Option.some.inj (held'.symm.trans held)

/-- Only one path leads to a report component of a given reference. -/
theorem path_eq_of_reference_eq {path' : List Nat} {d : Component} {reference : Int32}
    (leads : tree.root.follow? path = some c) (own : c.reference? = some reference)
    (leads' : tree.root.follow? path' = some d) (own' : d.reference? = some reference) :
    path' = path := by
  have held := (tree.getElem?_keys_index reference c.key).mpr ⟨path, c, leads, own, rfl⟩
  have held' := (tree.getElem?_keys_index reference d.key).mpr ⟨path', d, leads', own', rfl⟩
  exact path_eq_of_key_eq leads leads' (Option.some.inj (held'.symm.trans held))

theorem byKey_of_absent {key : String}
    (absent : ∀ path c, tree.root.follow? path = some c → c.key ≠ key) :
    tree.byKey key = .error (.unknownComponent key) := by
  cases held : tree.index.paths[key]? with
  | none => rw [byKey, held, Option.bind_none]
  | some path =>
    obtain ⟨c, leads, named⟩ := (tree.getElem?_paths_index key path).mp held
    exact absurd named (absent path c leads)

theorem byReference_of_absent {reference : Int32}
    (absent : ∀ path c, tree.root.follow? path = some c → c.reference? ≠ some reference) :
    tree.byReference reference = .error (.unknownReference reference) := by
  cases held : tree.index.keys[reference]? with
  | none => rw [byReference, held]
  | some key =>
    obtain ⟨path, c, leads, own, -⟩ := (tree.getElem?_keys_index reference key).mp held
    exact absurd own (absent path c leads)

/-- Every component counts once. -/
theorem size_eq_length (tree : ComponentTree) : tree.size = tree.root.preorder.length := by
  rw [size, tree.index_lists.size_paths, ← Component.map_snd_placed [], List.length_map]

variable {root : Component}

theorem root_of_ofRoot (h : ofRoot root = .ok tree) : tree.root = root := by
  unfold ofRoot at h
  split at h
  · contradiction
  · rw [← Except.ok.inj h]

theorem firstClash_of_ofRoot {fault : Fault} (h : ofRoot root = .error fault) :
    Component.FirstClash root.preorder fault := by
  unfold ofRoot at h
  split at h
  · rename_i refused
    obtain rfl := Except.error.inj h
    exact Index.firstClash_of_ofRoot refused
  · contradiction

theorem exists_ofRoot_iff :
    (∃ tree, ofRoot root = .ok tree) ↔
      (root.preorder.map Component.key).Nodup ∧
        (root.preorder.filterMap Component.reference?).Nodup := by
  constructor
  · rintro ⟨tree, h⟩
    rw [← root_of_ofRoot h]
    exact ⟨tree.nodup_keys, tree.nodup_references⟩
  · rintro ⟨keys, references⟩
    cases h : ofRoot root with
    | ok tree => exact ⟨tree, rfl⟩
    | error fault =>
      exact absurd (firstClash_of_ofRoot h) (Component.not_firstClash keys references fault)

/-- A component becomes the root of a tree precisely if no key and no reference occurs twice below
it; otherwise the fault is that of the first component, parents before children, that clashes with
those before it. In the tree every component is found under its key, by a path that leads to its
own place, and every report component under its reference, which is that of no other one. Any other
key and any other reference is unknown, every component counts once, and every path that the index
holds leads to a component. -/
theorem ofRoot_indexes_exactly (root : Component) :
    ((∃ tree, ofRoot root = .ok tree) ↔
      (root.preorder.map Component.key).Nodup ∧
        (root.preorder.filterMap Component.reference?).Nodup) ∧
    (∀ fault, ofRoot root = .error fault → Component.FirstClash root.preorder fault) ∧
    ∀ tree, ofRoot root = .ok tree →
      tree.root = root ∧ tree.size = root.preorder.length ∧
      (∀ path c, root.follow? path = some c →
        tree.index.paths[c.key]? = some path ∧ tree.byKey c.key = .ok c) ∧
      (∀ path c reference, root.follow? path = some c → c.reference? = some reference →
        tree.byReference reference = .ok c ∧
        ∀ path' d, root.follow? path' = some d → d.reference? = some reference → path' = path) ∧
      (∀ key, (∀ path c, root.follow? path = some c → c.key ≠ key) →
        tree.byKey key = .error (.unknownComponent key)) ∧
      (∀ reference, (∀ path c, root.follow? path = some c → c.reference? ≠ some reference) →
        tree.byReference reference = .error (.unknownReference reference)) ∧
      ∀ key path, tree.index.paths[key]? = some path →
        ∃ c, root.follow? path = some c ∧ c.key = key := by
  refine ⟨exists_ofRoot_iff, fun fault => firstClash_of_ofRoot, ?_⟩
  intro tree h
  obtain rfl := root_of_ofRoot h
  refine ⟨rfl, tree.size_eq_length, ?_, ?_, fun key => byKey_of_absent,
    fun reference => byReference_of_absent, fun key path => (tree.getElem?_paths_index key path).mp⟩
  · intro path c leads
    exact ⟨(tree.getElem?_paths_index c.key path).mpr ⟨c, leads, rfl⟩, byKey_of_follow? leads⟩
  · intro path c reference leads own
    exact ⟨byReference_of_follow? leads own,
      fun path' d leads' own' => path_eq_of_reference_eq leads own leads' own'⟩

end ComponentTree

namespace IndexWitnesses

def file : Component := .node ⟨"F", none, "F", .file ⟨3, none, none⟩ {}⟩ []

def directory : Component := .node ⟨"D", none, "D", .directory ⟨2, none, none⟩⟩ [file]

def script : Component := .node ⟨"S", none, "S", .file ⟨4, none, none⟩ {}⟩ []

def project (children : List Component) : Component :=
  .node ⟨"P", none, "P", .project ⟨1, none, none⟩⟩ children

/-- A file is found two steps below the root, under its key and under its reference; a project that
holds it twice is no root of a tree. -/
theorem ofRoot_indexes_exactly_project :
    (∃ tree, ComponentTree.ofRoot (project [script, directory]) = .ok tree ∧ tree.size = 4 ∧
      tree.index.paths["F"]? = some [1, 0] ∧ tree.byKey "F" = .ok file ∧
      tree.byReference 3 = .ok file ∧ tree.byKey "E" = .error (.unknownComponent "E") ∧
      tree.byReference 9 = .error (.unknownReference 9)) ∧
    ∃ fault, ComponentTree.ofRoot (project [file, directory]) = .error fault ∧
      Component.FirstClash (project [file, directory]).preorder fault := by
  constructor
  · obtain ⟨accepted, -, found⟩ :=
      ComponentTree.ofRoot_indexes_exactly (project [script, directory])
    obtain ⟨tree, ok⟩ := accepted.mpr ⟨by decide, by decide⟩
    obtain ⟨-, size, byKey, byReference, noKey, noReference, -⟩ := found tree ok
    have leads : (project [script, directory]).follow? [1, 0] = some file := rfl
    have keys : ∀ c ∈ (project [script, directory]).preorder, c.key ≠ "E" := by decide
    have references : ∀ c ∈ (project [script, directory]).preorder, c.reference? ≠ some 9 := by
      decide
    refine ⟨tree, ok, size, (byKey [1, 0] file leads).1, (byKey [1, 0] file leads).2,
      (byReference [1, 0] file 3 leads rfl).1, noKey "E" ?_, noReference 9 ?_⟩
    · exact fun path c leads => keys c (Component.mem_preorder_iff_follow?.mpr ⟨path, leads⟩)
    · exact fun path c leads => references c (Component.mem_preorder_iff_follow?.mpr ⟨path, leads⟩)
  · obtain ⟨accepted, refused, -⟩ :=
      ComponentTree.ofRoot_indexes_exactly (project [file, directory])
    cases outcome : ComponentTree.ofRoot (project [file, directory]) with
    | ok tree => exact absurd (accepted.mp ⟨tree, outcome⟩).1 (by decide)
    | error fault => exact ⟨fault, rfl, refused fault outcome⟩

end IndexWitnesses

end Metrology
