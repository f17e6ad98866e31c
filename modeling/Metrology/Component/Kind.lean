import Metrology.Named

/-! # Kinds of component

Components form two families: the parts of an analysed project, from the project down to its files,
and views, which collect projects. Within a family every kind has a depth.
-/

namespace Metrology

/-- The two families of component. A tree never mixes them. -/
inductive Family where
  | report
  | views
deriving DecidableEq

/-- The kinds of component. -/
inductive ComponentKind where
  | project
  | module
  | directory
  | file
  | view
  | subview
  | projectView
deriving DecidableEq

instance : Named ComponentKind where
  all := [.project, .module, .directory, .file, .view, .subview, .projectView]
  label
    | .project => "PROJECT"
    | .module => "MODULE"
    | .directory => "DIRECTORY"
    | .file => "FILE"
    | .view => "VIEW"
    | .subview => "SUBVIEW"
    | .projectView => "PROJECT_VIEW"

namespace ComponentKind

/-- The family a kind belongs to. -/
def family : ComponentKind → Family
  | .project | .module | .directory | .file => .report
  | .view | .subview | .projectView => .views

/-- The depth of a kind within its family; the topmost kind has depth 0. -/
def depth : ComponentKind → Nat
  | .project | .view => 0
  | .module | .subview => 1
  | .directory | .projectView => 2
  | .file => 3

/-- Both kinds belong to one family. -/
def SameFamily (a b : ComponentKind) : Prop :=
  a.family = b.family

instance (a b : ComponentKind) : Decidable (a.SameFamily b) :=
  inferInstanceAs (Decidable (_ = _))

/-- `a` lies strictly below `b` in the same family. -/
def DeeperThan (a b : ComponentKind) : Prop :=
  a.SameFamily b ∧ b.depth < a.depth

instance (a b : ComponentKind) : Decidable (a.DeeperThan b) :=
  inferInstanceAs (Decidable (_ ∧ _))

/-- `a` lies strictly above `b` in the same family. -/
def HigherThan (a b : ComponentKind) : Prop :=
  a.SameFamily b ∧ a.depth < b.depth

instance (a b : ComponentKind) : Decidable (a.HigherThan b) :=
  inferInstanceAs (Decidable (_ ∧ _))

/-- Whether components of the kind may stand directly inside one another. -/
def nests : ComponentKind → Bool
  | .module | .subview => true
  | _ => false

/-- A component of kind `a` may have a child of kind `b`: children lie deeper in the same family,
except that modules and sub-views also nest within their own kind. -/
def Contains (a b : ComponentKind) : Prop :=
  b.DeeperThan a ∨ (b = a ∧ a.nests = true)

instance (a b : ComponentKind) : Decidable (a.Contains b) :=
  inferInstanceAs (Decidable (_ ∨ _))

end ComponentKind

end Metrology
