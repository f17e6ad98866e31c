import Metrology.Aggregation.RollUp
import Metrology.Component.Tree
import Metrology.Computer.Crawl

/-! # Computation passes

A pass runs its steps over one tree, in order, all with the same options and on the same store. The
first step that fails ends the pass; what was stored before stays stored.
-/

namespace Metrology

/-- What all steps of a pass share. -/
structure PassOptions where
  /-- How deep the steps go. -/
  limit : DepthLimit := .file
  /-- Whether every measure that is added is shown in the log. -/
  traced : Bool := false
deriving DecidableEq

/-- What a step may use while it runs, besides the store. -/
structure PassContext where
  tree : ComponentTree
  settings : SettingsSource
  options : PassOptions

/-- One stage of a pass. -/
structure Step (catalog : Catalog) where
  description : String
  execute : PassContext → Action (Store catalog) Unit

namespace Step

variable {catalog : Catalog}

/-- Runs formulas from the leaves up. -/
def formulas {κ : Type} [Counter κ] (description : String) (formulas : List (Formula κ)) :
    Step catalog where
  description := description
  execute context := do
    let _ ← Formula.rollUp formulas context.options.limit context.options.traced context.tree.root

/-- Runs the computers of a registry from the root down. -/
def computers (registry : Registry catalog) : Step catalog where
  description := "Execute measure computers"
  execute context := do
    let _ ← registry.execute context.settings context.options.limit context.options.traced
      context.tree.root

end Step

/-- What a pass has done. -/
structure PassSummary where
  /-- The number of components within the depth limit. -/
  components : Nat
  /-- The number of measures the pass has added. -/
  measures : Nat
  /-- The number of steps it has executed. -/
  steps : Nat
deriving DecidableEq

namespace Component

mutual

/-- The number of components that a crawl from here visits. -/
def countWithin (limit : DepthLimit) : Component → Nat
  | .node profile children =>
    if limit.Allows profile.role.kind then 1 + countAllWithin limit children else 0

/-- The number of components that crawls from all of these visit. -/
def countAllWithin (limit : DepthLimit) : List Component → Nat
  | [] => 0
  | c :: cs => countWithin limit c + countAllWithin limit cs

end

end Component

/-- Steps that run one after the other with common options. -/
structure Pass (catalog : Catalog) where
  options : PassOptions := {}
  steps : List (Step catalog) := []

namespace Pass

variable {catalog : Catalog}

/-- The number of stored measures. -/
def storeSize : Action (Store catalog) Nat := do
  let store ← .get
  return store.size

/-- Runs one step and notes how many measures it added. -/
def runStep (context : PassContext) (step : Step catalog) : Action (Store catalog) Unit := do
  let before ← storeSize
  step.execute context
  let after ← storeSize
  Action.emit (.stepExecuted step.description (after - before))

/-- Runs all steps of a pass over a tree. -/
def run (pass : Pass catalog) (tree : ComponentTree) (settings : SettingsSource) :
    Action (Store catalog) PassSummary := do
  let components := tree.root.countWithin pass.options.limit
  let before ← storeSize
  Action.emit (.passStarted tree.root.key components pass.steps.length)
  pass.steps.forM (runStep ⟨tree, settings, pass.options⟩)
  let after ← storeSize
  Action.emit (.passFinished (after - before))
  return ⟨components, after - before, pass.steps.length⟩

end Pass

end Metrology
