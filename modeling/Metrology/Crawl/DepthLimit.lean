import Metrology.Component.Kind

/-! # How deep a crawl goes

A depth limit names the deepest kind a crawl enters, for each of the two families. The two kinds may
be any: a kind of the wrong family limits nothing.
-/

namespace Metrology

/-- The order in which a crawl calls on a component and on what lies below it. -/
inductive CrawlOrder where
  /-- A component comes before its children. -/
  | preOrder
  /-- A component comes after all of its children. -/
  | postOrder
deriving DecidableEq

instance : Named CrawlOrder where
  all := [.preOrder, .postOrder]
  label
    | .preOrder => "PreOrder"
    | .postOrder => "PostOrder"

/-- The deepest kinds that a crawl enters. -/
structure DepthLimit where
  /-- The deepest kind entered in a report tree. -/
  report : ComponentKind
  /-- The deepest kind entered in a views tree. -/
  views : ComponentKind
deriving DecidableEq

namespace DepthLimit

def project : DepthLimit := ⟨.project, .view⟩

def module : DepthLimit := ⟨.module, .subview⟩

def directory : DepthLimit := ⟨.directory, .subview⟩

def file : DepthLimit := ⟨.file, .projectView⟩

/-- As deep as a tree can go. -/
def leaves : DepthLimit := file

instance : Inhabited DepthLimit := ⟨file⟩

/-- The kind that limits a crawl where it meets the given kind. -/
def limitFor (limit : DepthLimit) (kind : ComponentKind) : ComponentKind :=
  match kind.family with
  | .report => limit.report
  | .views => limit.views

/-- Components of this kind are visited. -/
def Allows (limit : DepthLimit) (kind : ComponentKind) : Prop :=
  ¬ kind.DeeperThan (limit.limitFor kind)

instance (limit : DepthLimit) (kind : ComponentKind) : Decidable (limit.Allows kind) :=
  inferInstanceAs (Decidable (¬ _))

/-- The kind is the very limit, so that its components are the leaves of a crawl. -/
def IsLeafDepth (limit : DepthLimit) (kind : ComponentKind) : Prop :=
  kind = limit.limitFor kind

instance (limit : DepthLimit) (kind : ComponentKind) : Decidable (limit.IsLeafDepth kind) :=
  inferInstanceAs (Decidable (_ = _))

end DepthLimit

end Metrology
