import Metrology.Catalog

/-! # Finding metrics

The index of a catalog is exact. A list of metrics becomes a catalog precisely if no two of them
share a key, and is otherwise refused for the first metric whose key an earlier one has. In the
catalog the metrics stand in their order, each is found under its key as it was defined, and nothing
is found under any other key.
-/

namespace Metrology.Catalog

variable {metrics : List Metric} {catalog : Catalog} {key : String}

/-! ## Making a catalog -/

theorem metrics_of_ofList (made : ofList metrics = .ok catalog) : catalog.metrics = metrics := by
  rw [ofList] at made
  cases entered : Index.ofList metrics with
  | error fault =>
    rw [entered] at made
    contradiction
  | ok index =>
    rw [entered] at made
    rw [← Except.ok.inj made]
    exact Index.toList_metrics_of_ofList entered

theorem firstRepeat_of_ofList {fault : Fault} (refused : ofList metrics = .error fault) :
    Index.FirstRepeat metrics fault := by
  rw [ofList] at refused
  cases entered : Index.ofList metrics with
  | error fault' =>
    rw [entered] at refused
    rw [← Except.error.inj refused]
    exact Index.firstRepeat_of_ofList entered
  | ok index =>
    rw [entered] at refused
    contradiction

theorem exists_ofList_iff :
    (∃ catalog, ofList metrics = .ok catalog) ↔ (metrics.map Metric.key).Nodup := by
  constructor
  · rintro ⟨catalog, made⟩
    rw [← metrics_of_ofList made]
    exact catalog.nodup_keys
  · intro nodup
    cases made : ofList metrics with
    | ok catalog => exact ⟨catalog, rfl⟩
    | error fault => exact absurd (firstRepeat_of_ofList made) (Index.not_firstRepeat nodup fault)

/-! ## Looking up -/

theorem find?_eq_none_iff :
    catalog.find? key = none ↔ ∀ metric ∈ catalog.metrics, metric.key ≠ key := by
  rw [Option.eq_none_iff_forall_ne_some]
  simp only [ne_eq, find?_eq_some_iff, not_and]

/-- A metric of the catalog is found under its key. -/
theorem lookup_of_mem {metric : Metric} (mem : metric ∈ catalog.metrics) :
    catalog.find? metric.key = some metric ∧ catalog.get metric.key = .ok metric ∧
      catalog.contains metric.key = true := by
  have found := find?_eq_some_iff.mpr ⟨mem, rfl⟩
  refine ⟨found, ?_, ?_⟩
  · rw [get, found]
  · rw [contains, contains_positions_index, found, Option.isSome_some]

/-- Under a key that no metric has nothing is found. -/
theorem lookup_of_absent (absent : ∀ metric ∈ catalog.metrics, metric.key ≠ key) :
    catalog.find? key = none ∧ catalog.get key = .error (.unknownMetric key) ∧
      catalog.contains key = false := by
  have missing := find?_eq_none_iff.mpr absent
  refine ⟨missing, ?_, ?_⟩
  · rw [get, missing]
  · rw [contains, contains_positions_index, missing, Option.isSome_none]

/-- A list of metrics becomes a catalog precisely if no two of them share a key; otherwise the fault
names the key of the first metric whose key an earlier one has. The catalog holds the metrics of the
list in their order, and its index is the one that has grown with them. Every metric is found under
its key as it stands in the list, any other key is unknown, and every position that the index holds
is that of a metric of the list, the one of the key. -/
theorem ofList_indexes_metrics (metrics : List Metric) :
    ((∃ catalog, ofList metrics = .ok catalog) ↔ (metrics.map Metric.key).Nodup) ∧
    (∀ fault, ofList metrics = .error fault →
      ∃ earlier metric later, metrics = earlier ++ metric :: later ∧
        (earlier.map Metric.key).Nodup ∧ metric.key ∈ earlier.map Metric.key ∧
        fault = .duplicateMetric metric.key) ∧
    ∀ catalog, ofList metrics = .ok catalog →
      catalog.metrics = metrics ∧ catalog.size = metrics.length ∧
      Index.ofList metrics = .ok catalog.index ∧
      (∀ metric ∈ metrics, catalog.find? metric.key = some metric ∧
        catalog.get metric.key = .ok metric ∧ catalog.contains metric.key = true) ∧
      (∀ key, (∀ metric ∈ metrics, metric.key ≠ key) → catalog.find? key = none ∧
        catalog.get key = .error (.unknownMetric key) ∧ catalog.contains key = false) ∧
      ∀ key position, catalog.index.positions[key]? = some position →
        ∃ inBounds : position < metrics.length, metrics[position].key = key := by
  refine ⟨exists_ofList_iff, fun fault => firstRepeat_of_ofList, ?_⟩
  intro catalog made
  obtain rfl := metrics_of_ofList made
  refine ⟨rfl, rfl, catalog.ofList_index, fun metric => lookup_of_mem,
    fun key => lookup_of_absent, ?_⟩
  intro key position held
  obtain ⟨metric, stands, named⟩ := getElem?_positions_index.mp held
  obtain ⟨inBounds, here⟩ := List.getElem?_eq_some_iff.mp stands
  exact ⟨inBounds, here ▸ named⟩

end Metrology.Catalog

namespace Metrology.CatalogWitnesses

def lines : Metric := ⟨"lines", .int, "Lines"⟩

def debt : Metric := ⟨"sqale_index", .workDur, "Technical Debt"⟩

/-- A metric of another type and name under the key of the first one. -/
def linesAgain : Metric := ⟨"lines", .float, "Lines again"⟩

/-- Two metrics are found under their keys. With a third one that takes the key of the first they
make no catalog, whatever follows. -/
theorem ofList_indexes_metrics_two :
    (∃ catalog : Catalog, Catalog.ofList [lines, debt] = .ok catalog ∧ catalog.size = 2 ∧
      catalog.find? "sqale_index" = some debt ∧
      catalog.get "files" = .error (.unknownMetric "files") ∧
      ∀ (key : String) position, catalog.index.positions[key]? = some position → position < 2) ∧
    Catalog.ofList [lines, debt, linesAgain, debt] = .error (.duplicateMetric "lines") ∧
    ∃ earlier metric later, [lines, debt, linesAgain, debt] = earlier ++ metric :: later ∧
      metric.key ∈ earlier.map Metric.key ∧ metric.key = "lines" := by
  constructor
  · obtain ⟨accepted, -, found⟩ := Catalog.ofList_indexes_metrics [lines, debt]
    obtain ⟨catalog, made⟩ := accepted.mpr (by decide)
    obtain ⟨-, size, -, known, unknown, positions⟩ := found catalog made
    have absent : ∀ metric ∈ [lines, debt], metric.key ≠ "files" := by decide
    refine ⟨catalog, made, size, (known debt (by decide)).1, (unknown "files" absent).2.1, ?_⟩
    exact fun key position held => (positions key position held).1
  · have refusal : Catalog.ofList [lines, debt, linesAgain, debt] =
        .error (.duplicateMetric "lines") := rfl
    obtain ⟨-, refused, -⟩ := Catalog.ofList_indexes_metrics [lines, debt, linesAgain, debt]
    obtain ⟨earlier, metric, later, split, -, taken, named⟩ := refused _ refusal
    exact ⟨refusal, earlier, metric, later, split, taken, (Fault.duplicateMetric.inj named).symm⟩

end Metrology.CatalogWitnesses
