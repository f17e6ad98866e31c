import Metrology.Component.Basic
import Metrology.Measure

/-! # Counters

A counter gathers measures from the leaves of a crawl up. Leaves feed it from their own measures,
every other component from the counters of its children.
-/

namespace Metrology

/-- What a counter sees of the leaf it is fed from. -/
structure Leaf where
  component : Component
  /-- The leaf's own measure for a metric. -/
  measure : String → Except Fault (Option Measure)

/-- A change of a counter, which may fail. What was changed before a failure stays changed. -/
abbrev Update (κ : Type) := ExceptT Fault (StateM κ)

/-- The counter after a change that succeeds. -/
def Update.after {κ : Type} (update : Update κ Unit) (counter : κ) : Except Fault κ :=
  match update counter with
  | (.ok (), counter') => .ok counter'
  | (.error fault, _) => .error fault

/-- Types of values that gather measures. -/
class Counter (κ : Type) where
  /-- Adds what the counter of a child has gathered. -/
  aggregate : κ → Update κ Unit
  /-- Adds the measures of a leaf. -/
  aggregateLeaf : Leaf → Update κ Unit

end Metrology
