import Metrology.Crawl.Visitor

/-! # Several visitors in one walk

The visitors share one walk of the tree. At each component those that want it before its children
are called in their order, and after the children those that want it then; each sees only what its
own depth limit allows.
-/

namespace Metrology.Visitor

variable {σ : Type}

/-- Calls those visitors whose time it is and whose limit allows the component. -/
def dispatchEach (visitors : List (Visitor σ)) (time : CrawlOrder) (c : Component) :
    Action σ Unit :=
  visitors.forM fun v => if v.limit.Allows c.kind then v.dispatchAt time c else pure ()

/-- Some visitor wants to see components of this kind. -/
def SomeAllows (visitors : List (Visitor σ)) (kind : ComponentKind) : Prop :=
  ∃ v ∈ visitors, v.limit.Allows kind

instance (visitors : List (Visitor σ)) (kind : ComponentKind) :
    Decidable (SomeAllows visitors kind) :=
  inferInstanceAs (Decidable (∃ v ∈ visitors, v.limit.Allows kind))

mutual

/-- Walks the tree below `root` once for all visitors. -/
def crawlTogether (visitors : List (Visitor σ)) : Component → Action σ Unit
  | .node profile children =>
    if SomeAllows visitors profile.role.kind then do
      dispatchEach visitors .preOrder (.node profile children)
      crawlAllTogether visitors children
      dispatchEach visitors .postOrder (.node profile children)
    else pure ()

/-- Walks several trees, one after the other, for all visitors. -/
def crawlAllTogether (visitors : List (Visitor σ)) : List Component → Action σ Unit
  | [] => pure ()
  | c :: cs => do
    crawlTogether visitors c
    crawlAllTogether visitors cs

end

end Metrology.Visitor
