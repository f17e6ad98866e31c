import Std.Data.ExtTreeMap
import Metrology.Component.Basic

/-! # The index of a tree

A list of child positions leads from a component to one below it. An index tells by which positions
the component of a key is reached from the root, and which key a reference belongs to. It is written
in one walk over the tree, each component before its children, and refuses a key or a reference that
it holds already.
-/

namespace Metrology

namespace Component

/-- The component that the child positions lead to; the first child has position 0. -/
def follow? : Component → List Nat → Option Component
  | c, [] => some c
  | c, position :: path => c.children[position]?.bind fun child => child.follow? path

mutual

/-- The component that stands at `path` and all components below it with the paths to them, each
before its children. -/
def placed (path : List Nat) : Component → List (List Nat × Component)
  | .node profile children => (path, .node profile children) :: placedAll path 0 children

/-- The children of the component at `path`, from the given position on, and all below them. -/
def placedAll (path : List Nat) (position : Nat) : List Component → List (List Nat × Component)
  | [] => []
  | c :: cs => placed (path ++ [position]) c ++ placedAll path (position + 1) cs

end

mutual

/-- Without their paths these are the components in pre-order. -/
theorem map_snd_placed (path : List Nat) (c : Component) :
    (c.placed path).map Prod.snd = c.preorder := by
  cases c with
  | node profile children =>
    rw [placed, preorder, List.map_cons, map_snd_placedAll path 0 children]

theorem map_snd_placedAll (path : List Nat) (position : Nat) (cs : List Component) :
    (placedAll path position cs).map Prod.snd = preorderAll cs := by
  cases cs with
  | nil => rfl
  | cons c cs =>
    rw [placedAll, preorderAll, List.map_append, map_snd_placed (path ++ [position]) c,
      map_snd_placedAll path (position + 1) cs]

end

/-- What is wrong with a component among those before it: one of them has its key or, if the key is
new, its reference. -/
inductive Clash (earlier : List Component) (c : Component) : Fault → Prop
  | key (taken : c.key ∈ earlier.map Component.key) : Clash earlier c (.duplicateComponent c.key)
  | reference {reference : Int32} (fresh : c.key ∉ earlier.map Component.key)
      (own : c.reference? = some reference) (taken : reference ∈ earlier.filterMap reference?) :
      Clash earlier c (.duplicateReference reference)

/-- What is wrong with the first component that clashes with those before it. -/
def FirstClash (cs : List Component) (fault : Fault) : Prop :=
  ∃ earlier c later, cs = earlier ++ c :: later ∧ (earlier.map key).Nodup ∧
    (earlier.filterMap reference?).Nodup ∧ Clash earlier c fault

/-- Where no two components share a key or a reference, none clashes with those before it. -/
theorem not_firstClash {cs : List Component} (keys : (cs.map key).Nodup)
    (references : (cs.filterMap reference?).Nodup) (fault : Fault) : ¬ FirstClash cs fault := by
  rintro ⟨earlier, c, later, rfl, -, -, clash⟩
  cases clash with
  | key taken =>
    rw [List.map_append, List.nodup_append] at keys
    exact keys.2.2 c.key taken c.key (by simp) rfl
  | @reference reference fresh own taken =>
    rw [List.filterMap_append, List.filterMap_cons_some own, List.nodup_append] at references
    exact references.2.2 reference taken reference List.mem_cons_self rfl

end Component

/-- Where the components of a tree are to be found. -/
structure Index where
  /-- The child positions that lead from the root to each component, by its key. -/
  paths : Std.ExtTreeMap String (List Nat) := ∅
  /-- The keys of the report components, by their references. -/
  keys : Std.ExtTreeMap Int32 String := ∅

namespace Index

/-- The index with one more component, unless it holds the key or the reference already. -/
def record (index : Index) (path : List Nat) (c : Component) : Except Fault Index :=
  if c.key ∈ index.paths then .error (.duplicateComponent c.key)
  else
    match c.reference? with
    | none => .ok { index with paths := index.paths.insert c.key path }
    | some reference =>
      if reference ∈ index.keys then .error (.duplicateReference reference)
      else .ok ⟨index.paths.insert c.key path, index.keys.insert reference c.key⟩

mutual

/-- The index with the component that stands at `path` and all components below it. -/
def enter (index : Index) (path : List Nat) : Component → Except Fault Index
  | .node profile children => do
    let index ← index.record path (.node profile children)
    index.enterAll path 0 children

/-- The index with the children of the component at `path`, from the given position on, and all
components below them. -/
def enterAll (index : Index) (path : List Nat) (position : Nat) :
    List Component → Except Fault Index
  | [] => .ok index
  | c :: cs => do
    let index ← index.enter (path ++ [position]) c
    index.enterAll path (position + 1) cs

end

/-- The index of the tree below a component. -/
def ofRoot (root : Component) : Except Fault Index :=
  enter {} [] root

/-- Records components at their paths, one after the other. -/
def recordAll (index : Index) (entries : List (List Nat × Component)) : Except Fault Index :=
  entries.foldlM (fun index entry => index.record entry.1 entry.2) index

mutual

/-- The walk records what it meets, in pre-order. -/
theorem enter_eq_recordAll (index : Index) (path : List Nat) (c : Component) :
    index.enter path c = index.recordAll (c.placed path) := by
  cases c with
  | node profile children =>
    rw [enter, Component.placed, recordAll, List.foldlM_cons]
    exact bind_congr fun index => enterAll_eq_recordAll index path 0 children

theorem enterAll_eq_recordAll (index : Index) (path : List Nat) (position : Nat)
    (cs : List Component) :
    index.enterAll path position cs =
      index.recordAll (Component.placedAll path position cs) := by
  cases cs with
  | nil => rfl
  | cons c cs =>
    rw [enterAll, Component.placedAll, recordAll, List.foldlM_append,
      enter_eq_recordAll index (path ++ [position]) c]
    exact bind_congr fun index => enterAll_eq_recordAll index path (position + 1) cs

end

/-! ## What an index holds -/

theorem getElem?_insert_of_not_mem {α β : Type} [Ord α] [Std.TransOrd α] [Std.LawfulEqOrd α]
    {entries : Std.ExtTreeMap α β} {key key' : α} {value value' : β} (fresh : key ∉ entries) :
    (entries.insert key value)[key']? = some value' ↔
      entries[key']? = some value' ∨ key' = key ∧ value' = value := by
  rw [Std.ExtTreeMap.getElem?_insert]
  by_cases same : key = key'
  · subst same
    simp [Std.ExtTreeMap.getElem?_eq_none fresh, eq_comm]
  · simp [same, Ne.symm same]

theorem nodup_concat {α : Type} {xs : List α} {x : α} (nodup : xs.Nodup) (fresh : x ∉ xs) :
    (xs ++ [x]).Nodup := by
  rw [List.nodup_append]
  refine ⟨nodup, List.pairwise_singleton _ _, ?_⟩
  rintro y mem _ isLast rfl
  exact fresh (List.mem_singleton.mp isLast ▸ mem)

/-- What can come of recording a component. -/
theorem record_cases (index : Index) (path : List Nat) (c : Component) :
    (c.key ∈ index.paths ∧ index.record path c = .error (.duplicateComponent c.key)) ∨
      c.key ∉ index.paths ∧
        ((∃ reference, c.reference? = some reference ∧ reference ∈ index.keys ∧
            index.record path c = .error (.duplicateReference reference)) ∨
          (c.reference? = none ∧
            index.record path c = .ok ⟨index.paths.insert c.key path, index.keys⟩) ∨
          ∃ reference, c.reference? = some reference ∧ reference ∉ index.keys ∧
            index.record path c =
              .ok ⟨index.paths.insert c.key path, index.keys.insert reference c.key⟩) := by
  by_cases taken : c.key ∈ index.paths
  · exact .inl ⟨taken, if_pos taken⟩
  · refine .inr ⟨taken, ?_⟩
    rw [record, if_neg taken]
    cases own : c.reference? with
    | none => exact .inr (.inl ⟨rfl, rfl⟩)
    | some reference =>
      by_cases taken' : reference ∈ index.keys
      · exact .inl ⟨reference, rfl, taken', if_pos taken'⟩
      · exact .inr (.inr ⟨reference, rfl, taken', if_neg taken'⟩)

/-- The index holds these components under these paths and nothing else, and no two of them share a
key or a reference. -/
structure Lists (index : Index) (entries : List (List Nat × Component)) : Prop where
  getElem?_paths : ∀ key path, index.paths[key]? = some path ↔
    ∃ c, (path, c) ∈ entries ∧ c.key = key
  getElem?_keys : ∀ reference key, index.keys[reference]? = some key ↔
    ∃ c ∈ entries.map Prod.snd, c.reference? = some reference ∧ c.key = key
  nodup_keys : ((entries.map Prod.snd).map Component.key).Nodup
  nodup_references : ((entries.map Prod.snd).filterMap Component.reference?).Nodup
  size_paths : index.paths.size = entries.length

namespace Lists

variable {index next : Index} {entries more : List (List Nat × Component)} {path : List Nat}
  {c : Component}

theorem empty : Lists {} [] where
  getElem?_paths := by simp
  getElem?_keys := by simp
  nodup_keys := List.nodup_nil
  nodup_references := List.nodup_nil
  size_paths := rfl

theorem mem_paths_iff (lists : index.Lists entries) {key : String} :
    key ∈ index.paths ↔ key ∈ (entries.map Prod.snd).map Component.key := by
  rw [Std.ExtTreeMap.mem_iff_isSome_getElem?, Option.isSome_iff_exists]
  simp only [lists.getElem?_paths, List.mem_map, Prod.exists]
  constructor
  · rintro ⟨path, c, mem, named⟩
    exact ⟨c, ⟨path, c, mem, rfl⟩, named⟩
  · rintro ⟨_, ⟨path, c, mem, rfl⟩, named⟩
    exact ⟨path, c, mem, named⟩

theorem mem_keys_iff (lists : index.Lists entries) {reference : Int32} :
    reference ∈ index.keys ↔ reference ∈ (entries.map Prod.snd).filterMap Component.reference? := by
  rw [Std.ExtTreeMap.mem_iff_isSome_getElem?, Option.isSome_iff_exists, List.mem_filterMap]
  simp only [lists.getElem?_keys]
  constructor
  · rintro ⟨key, c, mem, own, -⟩
    exact ⟨c, mem, own⟩
  · rintro ⟨c, mem, own⟩
    exact ⟨c.key, c, mem, own, rfl⟩

/-- Recording one more component keeps an index exact. -/
theorem record (lists : index.Lists entries) (recorded : index.record path c = .ok next) :
    next.Lists (entries ++ [(path, c)]) := by
  rcases index.record_cases path c with ⟨-, refused⟩ | ⟨fresh, outcome⟩
  · rw [refused] at recorded
    contradiction
  have paths : ∀ key path', (index.paths.insert c.key path)[key]? = some path' ↔
      ∃ d, (path', d) ∈ entries ++ [(path, c)] ∧ d.key = key := by
    intro key path'
    rw [getElem?_insert_of_not_mem fresh, lists.getElem?_paths]
    simp only [List.mem_append, List.mem_singleton, Prod.mk.injEq, or_and_right, exists_or]
    exact or_congr_right (by grind)
  have keys : (((entries ++ [(path, c)]).map Prod.snd).map Component.key).Nodup := by
    rw [List.map_append, List.map_append]
    exact nodup_concat lists.nodup_keys (mt lists.mem_paths_iff.mpr fresh)
  have size : (index.paths.insert c.key path).size = (entries ++ [(path, c)]).length := by
    rw [Std.ExtTreeMap.size_insert, if_neg (by simpa using fresh), lists.size_paths,
      List.length_append, List.length_singleton]
  rcases outcome with ⟨_, -, -, refused⟩ | ⟨own, accepted⟩ | ⟨reference, own, fresh', accepted⟩
  · rw [refused] at recorded
    contradiction
  · obtain rfl := Except.ok.inj (accepted.symm.trans recorded)
    refine ⟨paths, ?_, keys, ?_, size⟩
    · intro reference key
      simp [lists.getElem?_keys, own]
    · simpa [own] using lists.nodup_references
  · obtain rfl := Except.ok.inj (accepted.symm.trans recorded)
    refine ⟨paths, ?_, keys, ?_, size⟩
    · intro reference' key
      rw [getElem?_insert_of_not_mem fresh', lists.getElem?_keys]
      simp only [List.map_append, List.mem_append, or_and_right, exists_or]
      exact or_congr_right (by simp [own, eq_comm])
    · have last : ([(path, c)].map Prod.snd).filterMap Component.reference? = [reference] :=
        List.filterMap_cons_some own
      rw [List.map_append, List.filterMap_append, last]
      exact nodup_concat lists.nodup_references (mt lists.mem_keys_iff.mpr fresh')

/-- Recording more components keeps an index exact. -/
theorem recordAll (lists : index.Lists entries) (recorded : index.recordAll more = .ok next) :
    next.Lists (entries ++ more) := by
  induction more generalizing index entries with
  | nil =>
    cases recorded
    rwa [List.append_nil]
  | cons entry more ih =>
    rw [Index.recordAll, List.foldlM_cons] at recorded
    cases first : index.record entry.1 entry.2 with
    | error fault =>
      rw [first] at recorded
      contradiction
    | ok between =>
      rw [first] at recorded
      rw [← List.singleton_append, ← List.append_assoc]
      exact ih (lists.record first) recorded

/-- An index refuses what clashes with the components it holds. -/
theorem clash_of_record (lists : index.Lists entries) {fault : Fault}
    (refused : index.record path c = .error fault) :
    Component.Clash (entries.map Prod.snd) c fault := by
  rcases index.record_cases path c with ⟨taken, refused'⟩ | ⟨fresh, outcome⟩
  · obtain rfl := Except.error.inj (refused'.symm.trans refused)
    exact .key (lists.mem_paths_iff.mp taken)
  rcases outcome with ⟨reference, own, taken, refused'⟩ | ⟨-, accepted⟩ | ⟨_, -, -, accepted⟩
  · obtain rfl := Except.error.inj (refused'.symm.trans refused)
    exact .reference (mt lists.mem_paths_iff.mpr fresh) own (lists.mem_keys_iff.mp taken)
  · rw [accepted] at refused
    contradiction
  · rw [accepted] at refused
    contradiction

/-- What is refused is the first component that clashes with those before it. -/
theorem firstClash_of_recordAll (lists : index.Lists entries) {fault : Fault}
    (refused : index.recordAll more = .error fault) :
    Component.FirstClash ((entries ++ more).map Prod.snd) fault := by
  induction more generalizing index entries with
  | nil => contradiction
  | cons entry more ih =>
    rw [Index.recordAll, List.foldlM_cons] at refused
    cases first : index.record entry.1 entry.2 with
    | error fault' =>
      rw [first] at refused
      obtain rfl := Except.error.inj refused
      refine ⟨entries.map Prod.snd, entry.2, more.map Prod.snd, ?_, lists.nodup_keys,
        lists.nodup_references, lists.clash_of_record first⟩
      rw [List.map_append, List.map_cons]
    | ok between =>
      rw [first] at refused
      rw [← List.singleton_append, ← List.append_assoc]
      exact ih (lists.record first) refused

end Lists

variable {root : Component}

/-- The index of a tree lists the components of the tree with their paths. -/
theorem lists_of_ofRoot {index : Index} (h : ofRoot root = .ok index) :
    index.Lists (root.placed []) :=
  Lists.empty.recordAll ((enter_eq_recordAll {} [] root).symm.trans h)

theorem nodup_keys_of_ofRoot {index : Index} (h : ofRoot root = .ok index) :
    (root.preorder.map Component.key).Nodup := by
  rw [← Component.map_snd_placed []]
  exact (lists_of_ofRoot h).nodup_keys

theorem nodup_references_of_ofRoot {index : Index} (h : ofRoot root = .ok index) :
    (root.preorder.filterMap Component.reference?).Nodup := by
  rw [← Component.map_snd_placed []]
  exact (lists_of_ofRoot h).nodup_references

theorem firstClash_of_ofRoot {fault : Fault} (h : ofRoot root = .error fault) :
    Component.FirstClash root.preorder fault := by
  have clash := Lists.empty.firstClash_of_recordAll ((enter_eq_recordAll {} [] root).symm.trans h)
  rwa [List.nil_append, Component.map_snd_placed] at clash

end Index

end Metrology
