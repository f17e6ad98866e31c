import Mathlib.Data.List.Perm.Subperm
import Mathlib.Order.Defs.Unbundled
import Metrology.Action
import Metrology.Store

/-! # Growth of the store

What storing a measure does to every slot, and the relation between a store and a later one that
holds all it held and has gained measures within a given scope only.
-/

namespace Metrology

variable {catalog : Catalog}

namespace Catalog

theorem key_of_find? {key : String} {metric : Metric} (h : catalog.find? key = some metric) :
    metric.key = key :=
  (find?_eq_some_iff.mp h).2

theorem get_of_find? {key : String} {metric : Metric} (h : catalog.find? key = some metric) :
    catalog.get key = .ok metric := by
  rw [get, h]

theorem find?_of_get {key : String} {metric : Metric} (h : catalog.get key = .ok metric) :
    catalog.find? key = some metric := by
  rw [get] at h
  split at h
  · cases h
    assumption
  · contradiction

/-- A metric that is contained in the catalog is found there. -/
theorem exists_find?_of_contains {key : String} (h : catalog.contains key = true) :
    ∃ metric, catalog.find? key = some metric :=
  Option.isSome_iff_exists.mp (contains_positions_index.symm.trans h)

end Catalog

namespace Store

/-- A measure can be stored if the catalog admits it and its slot is empty. -/
theorem add_eq_ok_iff {store after : Store catalog} {component metric : String}
    {measure : Measure} :
    store.add component metric measure = .ok after ↔
      ∃ admits : catalog.Admits metric measure,
        store.find? component metric = none ∧
          after = store.put component metric measure admits := by
  unfold add
  split
  · rename_i fault objects
    constructor
    · intro h
      contradiction
    · rintro ⟨admits, -⟩
      rw [Catalog.objection?_eq_none_iff.mpr admits] at objects
      contradiction
  · rename_i noObjection
    have admits := Catalog.objection?_eq_none_iff.mp noObjection
    cases held : store.find? component metric with
    | some measure => simp
    | none =>
      simp only [Except.ok.injEq, true_and]
      exact ⟨fun h => ⟨admits, h.symm⟩, fun ⟨_, h⟩ => h.symm⟩

/-- After a measure was stored its slot holds it, and all other slots are as they were. -/
theorem find?_of_add {store after : Store catalog} {component metric : String} {measure : Measure}
    (h : store.add component metric measure = .ok after) (component' metric' : String) :
    after.find? component' metric' =
      if component' = component ∧ metric' = metric then some measure
      else store.find? component' metric' := by
  obtain ⟨admits, -, rfl⟩ := add_eq_ok_iff.mp h
  exact find?_put store component metric measure admits component' metric'

/-- With a measure that was stored in an empty slot the store holds one more. -/
theorem size_of_add {store after : Store catalog} {component metric : String} {measure : Measure}
    (h : store.add component metric measure = .ok after) : after.size = store.size + 1 := by
  obtain ⟨admits, free, rfl⟩ := add_eq_ok_iff.mp h
  have absent : store.measures.contains ⟨component, metric⟩ = false := by
    rw [Std.ExtTreeMap.contains_eq_isSome_getElem?]
    exact congrArg Option.isSome free
  rw [size, put, Std.ExtTreeMap.size_insert, absent]
  rfl

/-- The catalog knows the metric of a measure that is held, and the measure is one of it. -/
theorem admits_of_find? {store : Store catalog} {component metric : String} {measure : Measure}
    (h : store.find? component metric = some measure) : catalog.Admits metric measure :=
  store.admitted ⟨component, metric⟩ measure h

theorem get_of_find? {store : Store catalog} {component key : String} {metric : Metric}
    (h : catalog.find? key = some metric) :
    store.get component key = .ok (store.find? component key) := by
  rw [get, h]

/-- `after` holds all that `before` holds, and outside of `scope` nothing else. -/
structure GrowsIn (scope : String → String → Prop) (before after : Store catalog) : Prop where
  /-- What was held is held still. -/
  kept : ∀ {component metric : String} {measure : Measure},
    before.find? component metric = some measure → after.find? component metric = some measure
  /-- Nothing is gained outside of the scope. -/
  outside : ∀ {component metric : String}, ¬ scope component metric →
    after.find? component metric = before.find? component metric

/-- The slots of these components for these metrics. -/
def SlotsOf (components : List Component) (metrics : String → Prop) (component metric : String) :
    Prop :=
  (∃ c ∈ components, c.key = component) ∧ metrics metric

namespace GrowsIn

variable {scope wider : String → String → Prop}

instance : IsPreorder (Store catalog) (GrowsIn scope) where
  refl _ := ⟨fun h => h, fun _ => rfl⟩
  trans _ _ _ first second :=
    ⟨fun h => second.kept (first.kept h),
      fun apart => (second.outside apart).trans (first.outside apart)⟩

theorem mono {before after : Store catalog} (grows : GrowsIn scope before after)
    (inside : ∀ {component metric}, scope component metric → wider component metric) :
    GrowsIn wider before after :=
  ⟨grows.kept, fun apart => grows.outside fun held => apart (inside held)⟩

theorem of_add {store after : Store catalog} {component metric : String} {measure : Measure}
    (h : store.add component metric measure = .ok after) (inside : scope component metric) :
    GrowsIn scope store after := by
  constructor
  · intro component' metric' measure' held
    obtain ⟨-, free, -⟩ := add_eq_ok_iff.mp h
    rw [find?_of_add h, if_neg]
    · exact held
    · rintro ⟨rfl, rfl⟩
      rw [free] at held
      contradiction
  · intro component' metric' apart
    rw [find?_of_add h, if_neg]
    rintro ⟨rfl, rfl⟩
    exact apart inside

/-- A store that grows does not get smaller. -/
theorem size_le {before after : Store catalog} (grows : GrowsIn scope before after) :
    before.size ≤ after.size := by
  have kept : before.measures.keys ⊆ after.measures.keys := by
    intro slot mem
    rw [Std.ExtTreeMap.mem_keys] at mem ⊢
    obtain ⟨measure, held⟩ := Option.isSome_iff_exists.mp
      (Std.ExtTreeMap.isSome_getElem?_iff_mem.mpr mem)
    have held' : after.measures[slot]? = some measure := grows.kept held
    exact Std.ExtTreeMap.isSome_getElem?_iff_mem.mp (Option.isSome_of_eq_some held')
  rw [size, size, ← Std.ExtTreeMap.length_keys, ← Std.ExtTreeMap.length_keys]
  exact (List.subperm_of_subset Std.ExtTreeMap.nodup_keys kept).length_le

end GrowsIn

end Store

/-- Growth of the store beside which something is counted. -/
def CountedGrowsIn (scope : String → String → Prop) (before after : Counted (Store catalog)) :
    Prop :=
  Store.GrowsIn scope before.state after.state

instance (scope : String → String → Prop) :
    IsPreorder (Counted (Store catalog)) (CountedGrowsIn scope) where
  refl s := refl s.state
  trans _ _ _ first second := IsTrans.trans (r := Store.GrowsIn scope) _ _ _ first second

end Metrology
