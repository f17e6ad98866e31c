import Metrology.Computer.Context
import Metrology.Computer.Registry
import Metrology.Crawl.Visitor

/-! # Running measure computers

The computers of a registry run over a tree from the root down: at every component all of them run,
in the order of their registration, before any component below it is entered.
-/

namespace Metrology.Registry

variable {catalog : Catalog}

/-- Runs one computer on one component, and counts it. -/
def runComputer (settings : SettingsSource) (traced : Bool) (c : Component)
    (computer : Computer) (place : Nat) : Action (Counted (Store catalog)) Unit := do
  let context : Context := ⟨place, c, computer.declaration, settings c, traced⟩
  Action.uncounted (context.run (computer.compute c))
  Action.countOne
  Action.emit (.computerExecuted place c.key)

/-- Runs all computers of a registry at every component it is called on. -/
def visitor (registry : Registry catalog) (settings : SettingsSource) (limit : DepthLimit)
    (traced : Bool) : Visitor (Counted (Store catalog)) where
  order := .preOrder
  limit := limit
  call
    | .any, c =>
      registry.computers.zipIdx.forM fun (computer, place) =>
        runComputer settings traced c computer place
    | .ofKind _, _ => pure ()

/-- Runs the computers over the tree below `root` and gives the number of runs. -/
def execute (registry : Registry catalog) (settings : SettingsSource) (limit : DepthLimit)
    (traced : Bool) (root : Component) : Action (Store catalog) Nat :=
  .counting ((registry.visitor settings limit traced).crawl root)

end Metrology.Registry
