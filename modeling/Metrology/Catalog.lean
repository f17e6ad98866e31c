import Std.Data.ExtTreeMap
import Metrology.Fault
import Metrology.Metric

/-! # The metric catalog

The metrics known to a computation, in the order they were defined. An index tells at which position
the metric of a key stands. It grows with the list, metric by metric, and refuses a metric whose key
it holds already, so that no two metrics of a catalog share a key.
-/

namespace Metrology

/-- Metrics in the order in which they were entered, and where the one of each key stands. -/
structure Catalog.Index where
  metrics : Array Metric
  /-- The positions of the metrics, by their keys. -/
  positions : Std.ExtTreeMap String Nat
  /-- The position held for a key is the one at which a metric of this key stands. -/
  getElem?_positions : ∀ key position, positions[key]? = some position ↔
    ∃ metric : Metric, metrics[position]? = some metric ∧ metric.key = key

namespace Catalog.Index

variable {index next : Index} {metric : Metric} {more : List Metric}

theorem mem_positions_iff {key : String} :
    key ∈ index.positions ↔ key ∈ index.metrics.toList.map Metric.key := by
  rw [Std.ExtTreeMap.mem_iff_isSome_getElem?, Option.isSome_iff_exists, List.mem_map]
  simp only [index.getElem?_positions, List.mem_iff_getElem?, Array.getElem?_toList]
  constructor
  · rintro ⟨position, metric, stands, named⟩
    exact ⟨metric, ⟨position, stands⟩, named⟩
  · rintro ⟨metric, ⟨position, stands⟩, named⟩
    exact ⟨position, metric, stands, named⟩

/-- No two metrics of an index share a key, for the index holds one position for it. -/
theorem nodup_keys (index : Index) : (index.metrics.toList.map Metric.key).Nodup := by
  rw [List.Nodup, List.pairwise_map, List.pairwise_iff_getElem]
  intro i j hi hj before same
  have first := (index.getElem?_positions _ i).mpr
    ⟨_, by rw [← Array.getElem?_toList, List.getElem?_eq_getElem hi], rfl⟩
  have second := (index.getElem?_positions _ j).mpr
    ⟨_, by rw [← Array.getElem?_toList, List.getElem?_eq_getElem hj], same.symm⟩
  exact Nat.ne_of_lt before (Option.some.inj (first.symm.trans second))

/-- The index of no metrics. -/
def empty : Index where
  metrics := #[]
  positions := ∅
  getElem?_positions := by simp

/-- The index with one more metric, which must not have the key of an earlier one. -/
def enter (index : Index) (metric : Metric) : Except Fault Index :=
  if taken : metric.key ∈ index.positions then .error (.duplicateMetric metric.key)
  else .ok {
    metrics := index.metrics.push metric
    positions := index.positions.insert metric.key index.metrics.size
    getElem?_positions := by
      intro key position
      rw [Std.ExtTreeMap.getElem?_insert, Array.getElem?_push]
      by_cases own : metric.key = key
      · subst own
        have fresh : ∀ position, index.positions[metric.key]? ≠ some position := by
          simp [Std.ExtTreeMap.getElem?_eq_none taken]
        by_cases last : position = index.metrics.size
        · simp [last]
        · simp [last, Ne.symm last, ← index.getElem?_positions, fresh]
      · by_cases last : position = index.metrics.size
        · simp [last, own, index.getElem?_positions]
        · simp [last, own, index.getElem?_positions] }

/-- The index with more metrics, entered one after the other. -/
def enterAll (index : Index) (metrics : List Metric) : Except Fault Index :=
  metrics.foldlM enter index

/-- The index of a list of metrics. -/
def ofList (metrics : List Metric) : Except Fault Index :=
  empty.enterAll metrics

/-- What can come of entering a metric. -/
theorem enter_cases (index : Index) (metric : Metric) :
    (metric.key ∈ index.metrics.toList.map Metric.key ∧
        index.enter metric = .error (.duplicateMetric metric.key)) ∨
      metric.key ∉ index.metrics.toList.map Metric.key ∧
        ∃ next, index.enter metric = .ok next ∧ next.metrics = index.metrics.push metric := by
  rw [← mem_positions_iff]
  by_cases taken : metric.key ∈ index.positions
  · exact .inl ⟨taken, dif_pos taken⟩
  · exact .inr ⟨taken, _, dif_neg taken, rfl⟩

/-- An index holds the metrics that were entered, in their order. -/
theorem toList_metrics_of_enterAll (entered : index.enterAll more = .ok next) :
    next.metrics.toList = index.metrics.toList ++ more := by
  induction more generalizing index with
  | nil =>
    cases entered
    rw [List.append_nil]
  | cons metric more ih =>
    rw [enterAll, List.foldlM_cons] at entered
    rcases index.enter_cases metric with ⟨-, refused⟩ | ⟨-, between, accepted, pushed⟩
    · rw [refused] at entered
      contradiction
    · rw [accepted] at entered
      rw [ih entered, pushed, Array.toList_push, List.append_assoc, List.singleton_append]

/-- The fault is that of the first of the metrics whose key an earlier one has. -/
def FirstRepeat (metrics : List Metric) (fault : Fault) : Prop :=
  ∃ earlier metric later, metrics = earlier ++ metric :: later ∧
    (earlier.map Metric.key).Nodup ∧ metric.key ∈ earlier.map Metric.key ∧
    fault = .duplicateMetric metric.key

/-- Where no two metrics share a key, none has the key of an earlier one. -/
theorem not_firstRepeat {metrics : List Metric} (nodup : (metrics.map Metric.key).Nodup)
    (fault : Fault) : ¬ FirstRepeat metrics fault := by
  rintro ⟨earlier, metric, later, rfl, -, taken, -⟩
  rw [List.map_append, List.nodup_append] at nodup
  exact nodup.2.2 metric.key taken metric.key (by simp) rfl

theorem firstRepeat_of_enterAll {fault : Fault} (refused : index.enterAll more = .error fault) :
    FirstRepeat (index.metrics.toList ++ more) fault := by
  induction more generalizing index with
  | nil => contradiction
  | cons metric more ih =>
    rw [enterAll, List.foldlM_cons] at refused
    rcases index.enter_cases metric with ⟨taken, refused'⟩ | ⟨-, between, accepted, pushed⟩
    · rw [refused'] at refused
      obtain rfl := Except.error.inj refused
      exact ⟨index.metrics.toList, metric, more, rfl, index.nodup_keys, taken, rfl⟩
    · rw [accepted] at refused
      have first := ih refused
      rwa [pushed, Array.toList_push, List.append_assoc, List.singleton_append] at first

theorem toList_metrics_of_ofList {metrics : List Metric} (entered : ofList metrics = .ok index) :
    index.metrics.toList = metrics :=
  toList_metrics_of_enterAll entered

theorem firstRepeat_of_ofList {metrics : List Metric} {fault : Fault}
    (refused : ofList metrics = .error fault) : FirstRepeat metrics fault :=
  firstRepeat_of_enterAll refused

end Catalog.Index

/-- The metrics known to a computation. -/
structure Catalog where
  /-- The metrics in the order of their definition. -/
  metrics : List Metric
  /-- Every key identifies one metric. -/
  nodup_keys : (metrics.map Metric.key).Nodup

namespace Catalog

/-- The catalog of the given metrics; keys must be distinct. -/
def ofList (metrics : List Metric) : Except Fault Catalog := do
  let index ← Index.ofList metrics
  return ⟨index.metrics.toList, index.nodup_keys⟩

/-- The index of the catalog. It follows from the metrics, and no key stands in its way. -/
def index (catalog : Catalog) : Index :=
  match h : Index.ofList catalog.metrics with
  | .ok index => index
  | .error fault => absurd (Index.firstRepeat_of_ofList h)
      (Index.not_firstRepeat catalog.nodup_keys fault)

/-- The metric of the given key, if there is one. -/
def find? (catalog : Catalog) (key : String) : Option Metric :=
  (catalog.index.positions[key]?).bind fun position => catalog.metrics[position]?

/-- The metric of the given key. -/
def get (catalog : Catalog) (key : String) : Except Fault Metric :=
  match catalog.find? key with
  | some metric => .ok metric
  | none => .error (.unknownMetric key)

def contains (catalog : Catalog) (key : String) : Bool :=
  catalog.index.positions.contains key

/-- The number of metrics. -/
def size (catalog : Catalog) : Nat :=
  catalog.metrics.length

def isEmpty (catalog : Catalog) : Bool :=
  catalog.metrics.isEmpty

/-! ## What the index finds -/

variable {catalog : Catalog} {key : String} {metric : Metric}

theorem ofList_index (catalog : Catalog) : Index.ofList catalog.metrics = .ok catalog.index := by
  unfold index
  split
  · assumption
  · rename_i refused
    exact absurd (Index.firstRepeat_of_ofList refused)
      (Index.not_firstRepeat catalog.nodup_keys _)

/-- A position is held for a key precisely if the metric of the key stands there. -/
theorem getElem?_positions_index {position : Nat} :
    catalog.index.positions[key]? = some position ↔
      ∃ metric, catalog.metrics[position]? = some metric ∧ metric.key = key := by
  rw [catalog.index.getElem?_positions, ← Index.toList_metrics_of_ofList catalog.ofList_index]
  simp only [Array.getElem?_toList]

/-- What is found under a key is the metric of this key. -/
theorem find?_eq_some_iff :
    catalog.find? key = some metric ↔ metric ∈ catalog.metrics ∧ metric.key = key := by
  rw [find?, Option.bind_eq_some_iff, List.mem_iff_getElem?]
  constructor
  · rintro ⟨position, held, stands⟩
    obtain ⟨metric', stands', named⟩ := getElem?_positions_index.mp held
    obtain rfl := Option.some.inj (stands.symm.trans stands')
    exact ⟨⟨position, stands⟩, named⟩
  · rintro ⟨⟨position, stands⟩, named⟩
    exact ⟨position, getElem?_positions_index.mpr ⟨metric, stands, named⟩, stands⟩

@[simp] theorem contains_positions_index :
    catalog.index.positions.contains key = (catalog.find? key).isSome := by
  rw [Std.ExtTreeMap.contains_eq_isSome_getElem?, find?]
  cases held : catalog.index.positions[key]? with
  | none => rfl
  | some position =>
    obtain ⟨metric, stands, -⟩ := getElem?_positions_index.mp held
    rw [Option.bind_some, stands]
    rfl

end Catalog

end Metrology
