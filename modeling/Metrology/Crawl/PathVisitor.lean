import Metrology.Crawl.Path
import Metrology.Crawl.Visitor

/-! # Crawls along paths

A path visitor is told not only the component but the whole path to it. It gives an element to
every component it enters and may change, with every call, the element of the current component
and that of its parent, so that results can be folded from the leaves up to the root.
-/

namespace Metrology

/-- Visits components together with the paths to them. -/
structure PathVisitor (σ ε : Type) where
  order : CrawlOrder
  limit : DepthLimit
  /-- The element of a component that is about to be entered. This can not fail. -/
  create : Component → σ → ε × σ
  /-- What the visitor does when it is called on, and the elements it leaves at the end of the
  path. -/
  call : Callback → Path ε → Action σ (Ends ε) := fun _ path => pure path.ends

namespace PathVisitor

variable {σ ε : Type}

/-- The element of a component, as an action. -/
def enter (v : PathVisitor σ ε) (c : Component) : Action σ ε := fun s =>
  let (element, s') := v.create c s
  ⟨.ok element, s', []⟩

/-- One call, and the path as it is afterwards. -/
def step (v : PathVisitor σ ε) (callback : Callback) (path : Path ε) : Action σ (Path ε) := do
  let ends ← v.call callback path
  return path.withEnds ends

/-- Both calls of the current component. -/
def dispatch (v : PathVisitor σ ε) (path : Path ε) : Action σ (Path ε) := do
  let path ← v.step .any path
  v.step (.ofKind path.current.component.kind) path

/-- Both calls of the current component, if this is the visitor's time for them. -/
def dispatchAt (v : PathVisitor σ ε) (time : CrawlOrder) (path : Path ε) : Action σ (Path ε) :=
  if v.order = time then v.dispatch path else pure path

mutual

/-- Visits the component at the end of the path and all that is allowed below it, and gives the path
as it is afterwards. -/
def visit (v : PathVisitor σ ε) : Component → Path ε → Action σ (Path ε)
  | .node profile children, path => do
    Action.emit (.visiting profile.key (some path.depth))
    let path ← v.dispatchAt .preOrder path
    let path ← v.visitAll children path
    v.dispatchAt .postOrder path

/-- Visits those of the children of the current component that are allowed, one after the other. -/
def visitAll (v : PathVisitor σ ε) : List Component → Path ε → Action σ (Path ε)
  | [], path => pure path
  | c :: cs, path =>
    if v.limit.Allows c.kind then do
      let element ← v.enter c
      let below ← v.visit c (path.push c element)
      v.visitAll cs below.pop
    else v.visitAll cs path

end

/-- Crawls the tree below `root`; where the root itself is too deep, nothing happens. -/
def crawl (v : PathVisitor σ ε) (root : Component) : Action σ Unit :=
  if v.limit.Allows root.kind then do
    let element ← v.enter root
    let _ ← v.visit root (.start root element)
  else pure ()

end PathVisitor

end Metrology
