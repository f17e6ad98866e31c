import Metrology.Action
import Metrology.Crawl.DepthLimit

/-! # Crawls

A crawl walks the tree below a component, children in their order, and calls on a visitor at every
component the visitor's depth limit allows. It stops at the first call that fails.
-/

namespace Metrology

/-- The calls a visitor gets for one component: first the general one, then the one of its kind. -/
inductive Callback where
  | any
  | ofKind (kind : ComponentKind)
deriving DecidableEq

/-- Visits components and acts on a state of type `σ`. -/
structure Visitor (σ : Type) where
  order : CrawlOrder
  limit : DepthLimit
  /-- What the visitor does when it is called on. -/
  call : Callback → Component → Action σ Unit := fun _ _ => pure ()

namespace Visitor

variable {σ : Type}

/-- Both calls of a component. -/
def dispatch (v : Visitor σ) (c : Component) : Action σ Unit := do
  v.call .any c
  v.call (.ofKind c.kind) c

/-- Both calls of a component, if this is the visitor's time for them. -/
def dispatchAt (v : Visitor σ) (time : CrawlOrder) (c : Component) : Action σ Unit :=
  if v.order = time then v.dispatch c else pure ()

mutual

/-- Visits a component and all that is allowed below it. -/
def visit (v : Visitor σ) : Component → Action σ Unit
  | .node profile children => do
    Action.emit (.visiting profile.key none)
    v.dispatchAt .preOrder (.node profile children)
    v.visitAll children
    v.dispatchAt .postOrder (.node profile children)

/-- Visits those of the components that are allowed, one after the other. -/
def visitAll (v : Visitor σ) : List Component → Action σ Unit
  | [] => pure ()
  | c :: cs =>
    if v.limit.Allows c.kind then do
      v.visit c
      v.visitAll cs
    else v.visitAll cs

end

/-- Crawls the tree below `root`; where the root itself is too deep, nothing happens. -/
def crawl (v : Visitor σ) (root : Component) : Action σ Unit :=
  if v.limit.Allows root.kind then v.visit root else pure ()

end Visitor

end Metrology
