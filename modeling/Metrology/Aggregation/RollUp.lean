import Metrology.Aggregation.Formula
import Metrology.Crawl.PathVisitor
import Metrology.Store

/-! # Rolling measures up

Formulas are run over a tree from the leaves of the crawl to its root. Components at the depth limit
feed their counters from their own measures. Every component then stores the measures its counters
make and hands the counters on to its parent.
-/

namespace Metrology

namespace Formula

variable {κ : Type} {catalog : Catalog}

/-- Stores what one formula makes of its counter for one metric, and counts it. -/
def storeOutput (traced : Bool) (c : Component) (formula : Formula κ) (counter : κ) (key : String) :
    Action (Counted (Store catalog)) Unit := do
  let metric ← .ofExcept (catalog.get key)
  let made ← .ofExcept (formula.measure? counter c metric)
  match made with
  | some measure => do
    Action.emitIf traced (.measureCreated c.key key measure.value)
    Action.uncounted (Action.change fun store => store.add c.key key measure)
    Action.countOne
  | none => pure ()

/-- Stores what the formulas make of their counters, formula by formula. -/
def storeOutputs (traced : Bool) (c : Component) (formulas : List (Formula κ))
    (counters : List κ) : Action (Counted (Store catalog)) Unit :=
  (formulas.zip counters).forM fun (formula, counter) =>
    formula.outputs.forM fun key => storeOutput traced c formula counter key

variable [Counter κ]

/-- The counters after they were fed from the measures of a leaf. -/
def feed (leaf : Leaf) (counters : List κ) : Except Fault (List κ) :=
  counters.mapM fun counter => Update.after (Counter.aggregateLeaf leaf) counter

/-- The counters of a parent after those of a child were added to them. -/
def fold (parents children : List κ) : Except Fault (List κ) :=
  (parents.zip children).mapM fun (parent, child) => Update.after (Counter.aggregate child) parent

/-- What a leaf shows to the counters it feeds. -/
def leafOf (store : Store catalog) (c : Component) : Leaf where
  component := c
  measure metric := store.get c.key metric

/-- Runs formulas at every component it is called on. -/
def visitor (formulas : List (Formula κ)) (limit : DepthLimit) (traced : Bool) :
    PathVisitor (Counted (Store catalog)) (List κ) where
  order := .postOrder
  limit := limit
  create _ s := (formulas.map Formula.counter, s)
  call
    | .ofKind _, path => pure path.ends
    | .any, path => do
      let c := path.current.component
      let store ← .uncounted .get
      let counters ←
        if limit.IsLeafDepth c.kind then .ofExcept (feed (leafOf store c) path.element)
        else pure path.element
      storeOutputs traced c formulas counters
      match path.parent? with
      | none => return ⟨counters, none⟩
      | some parents => do
        let parents ← .ofExcept (fold parents counters)
        return ⟨counters, some parents⟩

/-- Runs formulas over the tree below `root` and gives the number of measures they stored. -/
def rollUp (formulas : List (Formula κ)) (limit : DepthLimit) (traced : Bool) (root : Component) :
    Action (Store catalog) Nat := do
  let stored ← .counting ((visitor formulas limit traced).crawl root)
  Action.emit (.formulasExecuted formulas.length stored)
  return stored

end Formula

end Metrology
