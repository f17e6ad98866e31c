import Metrology.Component.Index

/-! # Component trees

A tree of components in which every component can be found: keys are distinct, and so are the
references of report components.
-/

namespace Metrology

/-- A tree whose components can be found by key and, in a report tree, by reference. -/
structure ComponentTree where
  root : Component
  /-- Every key identifies one component. -/
  nodup_keys : (root.preorder.map Component.key).Nodup
  /-- Every reference identifies one report component. -/
  nodup_references : (root.preorder.filterMap Component.reference?).Nodup

namespace ComponentTree

/-- The tree below a component, unless a key or a reference occurs twice in it. -/
def ofRoot (root : Component) : Except Fault ComponentTree :=
  match h : Index.ofRoot root with
  | .error fault => .error fault
  | .ok _ => .ok ⟨root, Index.nodup_keys_of_ofRoot h, Index.nodup_references_of_ofRoot h⟩

/-- The index of the tree. It follows from the root, and no key and no reference stands in its
way. -/
def index (tree : ComponentTree) : Index :=
  match h : Index.ofRoot tree.root with
  | .ok index => index
  | .error fault => absurd (Index.firstClash_of_ofRoot h)
      (Component.not_firstClash tree.nodup_keys tree.nodup_references fault)

/-- All components of the tree, each before its children. -/
def components (tree : ComponentTree) : List Component :=
  tree.root.preorder

/-- The number of components. -/
def size (tree : ComponentTree) : Nat :=
  tree.index.paths.size

def isEmpty (tree : ComponentTree) : Bool :=
  tree.index.paths.isEmpty

/-- The component of the given key. -/
def byKey (tree : ComponentTree) (key : String) : Except Fault Component :=
  match (tree.index.paths[key]?).bind tree.root.follow? with
  | some c => .ok c
  | none => .error (.unknownComponent key)

/-- The report component of the given reference. -/
def byReference (tree : ComponentTree) (reference : Int32) : Except Fault Component :=
  match tree.index.keys[reference]? with
  | some key => tree.byKey key
  | none => .error (.unknownReference reference)

end ComponentTree

end Metrology
