import Std.Data.ExtTreeMap
import Metrology.Catalog
import Metrology.Component.Basic
import Metrology.Measure

/-! # Stored measures

A store holds at most one measure for each component and metric. It is bound to a catalog, and
whatever it holds is a measure of the metric it is held under, with a value that fits that metric.
-/

namespace Metrology

/-- A component and a metric, by key: where one measure is held. -/
structure Slot where
  component : String
  metric : String
deriving DecidableEq

/-- Slots are ordered by component first and by metric second, both by code points. -/
def Slot.order : Slot → Slot → Ordering :=
  compareLex (compareOn Slot.component) (compareOn Slot.metric)

instance : Std.TransCmp Slot.order :=
  inferInstanceAs (Std.TransCmp (compareLex (compareOn Slot.component) (compareOn Slot.metric)))

instance : Std.LawfulEqCmp Slot.order where
  eq_of_compare {a b} h := by
    cases a
    cases b
    simp only [Slot.order, compareLex, compareOn, Ordering.then_eq_eq,
      Std.LawfulEqOrd.compare_eq_iff_eq] at h
    simp [h]

/-- A stored measure as it is handed on after a computation. -/
structure Record where
  component : String
  metric : String
  value : Value
deriving BEq

namespace Catalog

/-- A measure may be held under `key`: the key is that of a metric of the catalog, the measure is
one of this metric, and its value fits. -/
def Admits (catalog : Catalog) (key : String) (measure : Measure) : Prop :=
  ∃ metric, catalog.find? key = some metric ∧ measure.metric = key ∧
    measure.value.Fits metric.valueType

/-- The first reason why the measure may not be held under `key`. -/
def objection? (catalog : Catalog) (key : String) (measure : Measure) : Option Fault :=
  match catalog.find? key with
  | none => some (.unknownMetric key)
  | some metric =>
    if measure.metric ≠ key then some (.metricMismatch key measure.metric)
    else if measure.value.Fits metric.valueType then none
    else some (.valueTypeMismatch key metric.valueType measure.valueType)

theorem objection?_eq_none_iff {catalog : Catalog} {key : String} {measure : Measure} :
    catalog.objection? key measure = none ↔ catalog.Admits key measure := by
  unfold objection? Admits
  cases catalog.find? key with
  | none => simp
  | some metric =>
    by_cases same : measure.metric = key
    · by_cases fits : measure.value.Fits metric.valueType <;> simp [same, fits]
    · simp [same]

end Catalog

/-- The measures of a computation, bound to the catalog of their metrics. -/
structure Store (catalog : Catalog) where
  measures : Std.ExtTreeMap Slot Measure Slot.order
  /-- Every measure is held under its own metric and has a value that fits it. -/
  admitted : ∀ (slot : Slot) (measure : Measure), measures[slot]? = some measure →
    catalog.Admits slot.metric measure

namespace Store

variable {catalog : Catalog}

/-- The store that holds nothing. -/
def empty (catalog : Catalog) : Store catalog where
  measures := ∅
  admitted := by simp

instance : EmptyCollection (Store catalog) := ⟨empty catalog⟩

/-- The measure held for a component and a metric, whether the catalog knows the metric or not. -/
def find? (store : Store catalog) (component metric : String) : Option Measure :=
  store.measures[Slot.mk component metric]?

/-- Puts a measure into its slot, in the place of one that may be there. -/
def put (store : Store catalog) (component metric : String) (measure : Measure)
    (admits : catalog.Admits metric measure) : Store catalog where
  measures := store.measures.insert ⟨component, metric⟩ measure
  admitted slot held h := by
    rw [Std.ExtTreeMap.getElem?_insert] at h
    split at h
    · rename_i same
      obtain rfl := Std.LawfulEqCmp.eq_of_compare same
      cases h
      exact admits
    · exact store.admitted slot held h

/-- Two stores that answer alike are the same. -/
theorem ext_find? {store other : Store catalog}
    (h : ∀ component metric, store.find? component metric = other.find? component metric) :
    store = other := by
  cases store
  cases other
  simp only [mk.injEq]
  exact Std.ExtTreeMap.ext_getElem? fun slot => h slot.component slot.metric

theorem find?_put (store : Store catalog) (component metric : String) (measure : Measure)
    (admits : catalog.Admits metric measure) (component' metric' : String) :
    (store.put component metric measure admits).find? component' metric' =
      if component' = component ∧ metric' = metric then some measure
      else store.find? component' metric' := by
  simp only [find?, put, Std.ExtTreeMap.getElem?_insert, Std.LawfulEqCmp.compare_eq_iff_eq,
    Slot.mk.injEq]
  simp only [eq_comm]

/-- Stores a measure in an empty slot. -/
def add (store : Store catalog) (component metric : String) (measure : Measure) :
    Except Fault (Store catalog) :=
  match h : catalog.objection? metric measure with
  | some fault => .error fault
  | none =>
    match store.find? component metric with
    | some _ => .error (.measureConflict metric component)
    | none => .ok (store.put component metric measure (Catalog.objection?_eq_none_iff.mp h))

/-- Replaces the measure in a slot that holds one. -/
def update (store : Store catalog) (component metric : String) (measure : Measure) :
    Except Fault (Store catalog) :=
  match h : catalog.objection? metric measure with
  | some fault => .error fault
  | none =>
    match store.find? component metric with
    | none => .error (.measureMissing metric component)
    | some _ => .ok (store.put component metric measure (Catalog.objection?_eq_none_iff.mp h))

/-- The measure held for a component and a metric of the catalog, if there is one. -/
def get (store : Store catalog) (component metric : String) : Except Fault (Option Measure) :=
  match catalog.find? metric with
  | none => .error (.unknownMetric metric)
  | some _ => .ok (store.find? component metric)

/-- The measures of the children of a component, in the order of the children. -/
def ofChildren (store : Store catalog) (c : Component) (metric : String) :
    Except Fault (List Measure) :=
  match catalog.find? metric with
  | none => .error (.unknownMetric metric)
  | some _ => .ok (c.children.filterMap fun child => store.find? child.key metric)

mutual

/-- Adds to those found so far the measures of all components below the given one. -/
def collectBelow (store : Store catalog) (metric : String) (found : Array Measure) :
    Component → Array Measure
  | .node _ children => collectAll store metric found children

/-- Adds to those found so far the measures of some components and of all below them. -/
def collectAll (store : Store catalog) (metric : String) (found : Array Measure) :
    List Component → Array Measure
  | [] => found
  | c :: cs =>
    let own :=
      match store.find? c.key metric with
      | none => found
      | some measure => found.push measure
    collectAll store metric (collectBelow store metric own c) cs

end

/-- The measures of all components below the given one, parents before children. -/
def ofDescendants (store : Store catalog) (c : Component) (metric : String) :
    Except Fault (List Measure) :=
  match catalog.find? metric with
  | none => .error (.unknownMetric metric)
  | some _ => .ok (store.collectBelow metric #[] c).toList

/-- All slots and their measures, in the order of the slots. -/
def toList (store : Store catalog) : List (Slot × Measure) :=
  store.measures.toList

/-- The metrics and measures of one component, in the order of the metrics. -/
def ofComponent (store : Store catalog) (component : String) : List (String × Measure) :=
  store.toList.filterMap fun (slot, measure) =>
    if slot.component = component then some (slot.metric, measure) else none

/-- The stored values by component and metric. -/
def records (store : Store catalog) : List Record :=
  store.toList.map fun (slot, measure) => ⟨slot.component, slot.metric, measure.value⟩

/-- The number of stored measures. -/
def size (store : Store catalog) : Nat :=
  store.measures.size

end Store

end Metrology
