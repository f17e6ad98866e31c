import Metrology.Component.Basic

/-! # Paths

A path leads from the root of a crawl to the component it has reached. Every component on it carries
an element, a value of the visitor's own.
-/

namespace Metrology

/-- A component on a path with its element. -/
structure Station (ε : Type) where
  component : Component
  element : ε

/-- The components from the root of a crawl to the current one. -/
structure Path (ε : Type) where
  current : Station ε
  /-- The components above the current one, nearest first. -/
  above : List (Station ε)

/-- The two elements at the end of a path: the current one and, except at the root, its parent's. -/
structure Ends (ε : Type) where
  current : ε
  parent : Option ε

namespace Path

variable {ε : Type}

/-- The path of a crawl that has just begun. -/
def start (root : Component) (element : ε) : Path ε :=
  ⟨⟨root, element⟩, []⟩

/-- The path one step further down. -/
def push (path : Path ε) (child : Component) (element : ε) : Path ε :=
  ⟨⟨child, element⟩, path.current :: path.above⟩

/-- The path one step back up; at the root it stays. -/
def pop (path : Path ε) : Path ε :=
  match path.above with
  | [] => path
  | parent :: rest => ⟨parent, rest⟩

/-- The element of the current component. -/
def element (path : Path ε) : ε :=
  path.current.element

/-- The element of the parent of the current component. -/
def parent? (path : Path ε) : Option ε :=
  path.above.head?.map Station.element

/-- The element of the root. -/
def root (path : Path ε) : ε :=
  (path.above.getLast?.getD path.current).element

def isRoot (path : Path ε) : Bool :=
  path.above.isEmpty

/-- The number of components above the current one. -/
def depth (path : Path ε) : Nat :=
  path.above.length

/-- The components of the path, root first. -/
def components (path : Path ε) : List Component :=
  (path.above.reverse.map Station.component) ++ [path.current.component]

def ends (path : Path ε) : Ends ε :=
  ⟨path.element, path.parent?⟩

/-- The path with other elements at its end. At the root there is no parent's element to replace. -/
def withEnds (path : Path ε) (ends : Ends ε) : Path ε where
  current := ⟨path.current.component, ends.current⟩
  above :=
    match path.above, ends.parent with
    | parent :: rest, some element => ⟨parent.component, element⟩ :: rest
    | above, _ => above

end Path

end Metrology
