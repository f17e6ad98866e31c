import Metrology.Component.Tree
import Metrology.Proofs.Aggregation.Fusion

/-! # Sums of doubles

A sum of doubles depends on the order in which it is added up. The sum at a component is that of the
sums of its visited children, in their order, and of the number it has itself if it is a leaf of the
crawl. The formulas that work with doubles all come to this sum: one that stores it stores it
unchanged, and an average is the quotient of two of them.
-/

namespace Metrology

variable {catalog : Catalog}

/-- The number of a value as a double, if it is a number. -/
def Value.number? : Value → Option Float
  | .int n => some n.toFloat
  | .long n => some n.toFloat
  | .double x => some x
  | _ => none

/-- The number held for a component and a metric, as a double. -/
def Store.number? (store : Store catalog) (component metric : String) : Option Float :=
  (store.find? component metric).bind fun measure => measure.value.number?

/-- What is wrong with reading a number for a component and a metric, if something is: the metric is
not known, or the value that is held is no number. -/
def Store.numberFault? (store : Store catalog) (component metric : String) : Option Fault :=
  match catalog.find? metric, store.find? component metric with
  | none, _ => some (.unknownMetric metric)
  | some _, none => none
  | some _, some measure =>
    if measure.value.type = .noValue ∨ measure.value.number?.isSome then none
    else some (.wrongValueAccess .double measure.value.type)

/-- Adds to a sum of doubles, which counts as zero while it is absent. -/
def addDouble (total : Option Float) (x : Float) : Option Float :=
  some (total.getD 0.0 + x)

/-- Adds up doubles from the first to the last. The sum is absent where there are none. -/
def addUp? (numbers : List Float) : Option Float :=
  numbers.foldl addDouble none

theorem addNumber_eq_foldl (total number : Option Float) :
    addNumber total number = number.toList.foldl addDouble total := by
  cases number <;> rfl

namespace Component

section Spec

variable (limit : DepthLimit) (store : Store catalog) (metric : String)

/-- The number that a component has as a leaf. -/
def ownDouble? (c : Component) : Option Float :=
  if limit.IsLeafDepth c.kind then store.number? c.key metric else none

mutual

/-- The sum of doubles at a component: that of its visited children's sums, in order, and its own
number. -/
def doubleSum? : Component → Option Float
  | .node profile children =>
    addUp? (doubleSums children ++ (ownDouble? limit store metric (.node profile children)).toList)

/-- The sums of the visited ones among the components, those that are absent left out. -/
def doubleSums : List Component → List Float
  | [] => []
  | c :: cs =>
    if limit.Allows c.kind then (doubleSum? c).toList ++ doubleSums cs else doubleSums cs

end

end Spec

end Component

/-! ## What a counter adds up -/

namespace Formula

open Metrology.Action Store Component

variable {κ : Type} [Counter κ] {limit : DepthLimit} {start : Store catalog}

/-- The part `total` of the formula's counters adds up the doubles of a metric: it is absent at
first, a child gives it the same part of its own counter, and a leaf gives it a number. -/
structure AddsUp (f : Formula κ) (metric : String) (total : κ → Option Float) : Prop where
  start : total f.counter = none
  child : ∀ {counter child grown : κ}, (Counter.aggregate child).after counter = .ok grown →
    total grown = (total child).toList.foldl addDouble (total counter)
  leaf : ∀ {catalog : Catalog} {store : Store catalog} {c : Component} {counter grown : κ},
    Counts f counter → (Counter.aggregateLeaf (leafOf store c)).after counter = .ok grown →
      total grown = (store.number? c.key metric).toList.foldl addDouble (total counter)

variable {f : Formula κ} {metric : String} {total : κ → Option Float}

theorem AddsUp.total_of_fed (addsUp : AddsUp f metric total) {c : Component} {counter grown : κ}
    (counts : Counts f counter) (h : fed limit start c counter = some grown) :
    total grown = (c.ownDouble? limit start metric).toList.foldl addDouble (total counter) := by
  rw [fed] at h
  rw [ownDouble?]
  split at h
  · rename_i leaf
    rw [if_pos leaf]
    exact addsUp.leaf counts (toOption_eq_some_iff.mp h)
  · rename_i inner
    rw [if_neg inner]
    cases h
    rfl

theorem AddsUp.total_of_tallyAll (addsUp : AddsUp f metric total) {cs : List Component}
    (each : ∀ c ∈ cs, ∀ counter, tally limit start f c = some counter →
      total counter = c.doubleSum? limit start metric)
    {counter grown : κ} (h : tallyAll limit start f cs counter = some grown) :
    total grown = (doubleSums limit start metric cs).foldl addDouble (total counter) := by
  induction cs generalizing counter with
  | nil =>
    cases h
    rfl
  | cons c cs ih =>
    have rest := fun d mem => each d (List.mem_cons_of_mem _ mem)
    rw [doubleSums]
    by_cases allowed : limit.Allows c.kind
    · rw [tallyAll_cons_of_allows allowed] at h
      obtain ⟨below, tallied, h⟩ := Option.bind_eq_some_iff.mp h
      obtain ⟨between, grows, h⟩ := Option.bind_eq_some_iff.mp h
      rw [if_pos allowed, List.foldl_append, ih rest h,
        addsUp.child (toOption_eq_some_iff.mp grows), each c List.mem_cons_self below tallied]
    · rw [tallyAll, if_neg allowed] at h
      rw [if_neg allowed, ih rest h]

/-- At every component the counter has come to the sum of doubles there. -/
theorem AddsUp.total_of_tally (addsUp : AddsUp f metric total) {c : Component} {counter : κ}
    (h : tally limit start f c = some counter) :
    total counter = c.doubleSum? limit start metric := by
  induction c generalizing counter with
  | node profile children ih =>
    rw [tally_node] at h
    obtain ⟨between, tallied, h⟩ := Option.bind_eq_some_iff.mp h
    rw [addsUp.total_of_fed (counts_of_tallyAll .start tallied) h,
      addsUp.total_of_tallyAll (fun c mem _ => ih c mem) tallied, addsUp.start, doubleSum?, addUp?,
      List.foldl_append]

end Formula

/-! ## The counters of the library -/

namespace SumCounter

variable {counter grown : SumCounter Float}

theorem total_of_after_offer (number : Option Float)
    (h : (offer number).after counter = .ok grown) :
    grown.total = number.toList.foldl addDouble counter.total := by
  cases number with
  | none =>
    obtain rfl := Except.ok.inj h
    rfl
  | some x =>
    rw [offer, after_add] at h
    obtain rfl := Except.ok.inj h
    rfl

theorem total_of_after_offerMeasure {held : Option Measure}
    (h : (offerMeasure held).after counter = .ok grown) :
    grown.total =
      (held.bind fun measure => measure.value.number?).toList.foldl addDouble counter.total := by
  cases held with
  | none => exact total_of_after_offer none h
  | some measure =>
    obtain ⟨key, value⟩ := measure
    cases value with
    | noValue => exact total_of_after_offer none h
    | double x => exact total_of_after_offer (some x) h
    | _ => contradiction

/-- A counter that sums doubles adds up the doubles of its metric. -/
theorem addsUp_total (input output : String) :
    (Formula.sum input output : Formula (SumCounter Float)).AddsUp input SumCounter.total where
  start := rfl
  child {_ child _} h := total_of_after_offer child.total h
  leaf {_ store c counter _} counts h := by
    rw [after_aggregateLeaf_eq, metric_of_counts counts] at h
    change store.get c.key input >>= _ = _ at h
    rw [Store.get] at h
    split at h
    · contradiction
    · exact total_of_after_offerMeasure h

end SumCounter

namespace AverageCounter

/-- A leaf has the number held for it, unless something is wrong with it. -/
theorem numberOf_leafOf (store : Store catalog) (c : Component) (metric : String) :
    numberOf (Formula.leafOf store c) metric =
      (store.numberFault? c.key metric).elim (.ok (store.number? c.key metric)) .error := by
  rw [numberOf]
  change store.get c.key metric >>= _ = _
  rw [Store.get, Store.numberFault?, Store.number?]
  cases catalog.find? metric with
  | none => rfl
  | some known =>
    cases store.find? c.key metric with
    | none => rfl
    | some measure =>
      obtain ⟨key, value⟩ := measure
      cases value <;> rfl

/-- What a leaf that can be read adds to the two sums. -/
theorem eq_of_after_aggregateLeaf {counter grown : AverageCounter} {store : Store catalog}
    {c : Component}
    (h : (Counter.aggregateLeaf (Formula.leafOf store c)).after counter = .ok grown) :
    grown = { counter with
      main := addNumber counter.main (store.number? c.key counter.mainMetric)
      per := addNumber counter.per (store.number? c.key counter.perMetric) } := by
  rw [after_aggregateLeaf_eq, numberOf_leafOf, numberOf_leafOf] at h
  cases main : store.numberFault? c.key counter.mainMetric with
  | some fault =>
    rw [main] at h
    contradiction
  | none =>
    cases per : store.numberFault? c.key counter.perMetric with
    | some fault =>
      rw [main, per] at h
      contradiction
    | none =>
      rw [main, per] at h
      exact (Except.ok.inj h).symm

/-- An average needs both sums, and a divisor that is not zero. -/
theorem average_eq_some_iff {counter : AverageCounter} {quotient : Float} :
    counter.average = some quotient ↔ ∃ x y, counter.main = some x ∧ counter.per = some y ∧
      (y != 0.0) = true ∧ quotient = x / y := by
  rw [average]
  constructor
  · intro h
    split at h
    · rename_i x y main per
      split at h
      · rename_i divides
        exact ⟨x, y, main, per, divides, (Option.some.inj h).symm⟩
      · contradiction
    · contradiction
  · rintro ⟨x, y, main, per, divides, rfl⟩
    rw [main, per]
    exact if_pos divides

/-- The averaged metric is added up apart from the divisor. -/
theorem addsUp_main (main per output : String) :
    (Formula.average main per output).AddsUp main AverageCounter.main where
  start := rfl
  child h := by
    obtain rfl := Except.ok.inj h
    exact addNumber_eq_foldl _ _
  leaf counts h := by
    rw [eq_of_after_aggregateLeaf h, (metrics_of_counts counts).1]
    exact addNumber_eq_foldl _ _

/-- The divisor is added up apart from the averaged metric. -/
theorem addsUp_per (main per output : String) :
    (Formula.average main per output).AddsUp per AverageCounter.per where
  start := rfl
  child h := by
    obtain rfl := Except.ok.inj h
    exact addNumber_eq_foldl _ _
  leaf counts h := by
    rw [eq_of_after_aggregateLeaf h, (metrics_of_counts counts).2]
    exact addNumber_eq_foldl _ _

end AverageCounter

/-! ## What a run leaves behind -/

namespace Formula

open Metrology.Action Store Component

variable {κ : Type} [Counter κ] {limit : DepthLimit} {traced : Bool} {f : Formula κ}
  {inputs : List String} {output : String}

/-- A formula with one output, all of whose measures hold a value of its counter, leaves this value
at every component visited whose slot was free. -/
theorem find?_of_rollUp {value? : κ → Option Value} (reads : ReadsOnly f inputs)
    (outputs : f.outputs = [output])
    (makes : ∀ counter c metric, f.measure? counter c metric = measureOf metric (value? counter))
    {tree : ComponentTree} {start : Store catalog} {stored : Nat}
    (ran : (rollUp [f] limit traced tree.root start).result = .ok stored) {c : Component}
    (visited : c ∈ tree.root.visited limit) (free : start.find? c.key output = none) :
    ∃ counter, tally limit start f c = some counter ∧
      (rollUp [f] limit traced tree.root start).state.find? c.key output =
        (value? counter).map (Measure.mk output) := by
  have all : ∀ g ∈ [f], ReadsOnly g ((fun _ => inputs) g) := List.forall_mem_singleton.mpr reads
  obtain ⟨own, there, holds⟩ := find?_eq_some_iff_of_rollUp all ran visited
  rw [row, collect_singleton] at there
  obtain ⟨counter, tallied, there⟩ := Option.bind_eq_some_iff.mp there
  rw [outputs, collect_singleton] at there
  refine ⟨counter, tallied, Option.ext fun measure => ?_⟩
  rw [holds, free, eq_of_made (makes counter c) there]
  simp only [reduceCtorEq, false_or, List.mem_map, Option.mem_toList, Prod.mk.injEq, true_and,
    Option.map_eq_some_iff]

/-- An average divides, at every component visited, one sum of doubles by another; a sum formula
stores such a sum as it is. -/
theorem rollUp_average_divides_sums (tree : ComponentTree) (limit : DepthLimit) (traced : Bool)
    (start : Store catalog) {c : Component} (visited : c ∈ tree.root.visited limit)
    (free : start.find? c.key output = none) :
    (∀ main per stored,
      let run := rollUp [average main per output] limit traced tree.root start
      run.result = .ok stored → ∀ measure, run.state.find? c.key output = some measure ↔
        ∃ x y, c.doubleSum? limit start main = some x ∧ c.doubleSum? limit start per = some y ∧
          (y != 0.0) = true ∧ measure = ⟨output, .double (x / y)⟩) ∧
      ∀ input stored,
        let run := rollUp [(sum input output : Formula (SumCounter Float))] limit traced tree.root
          start
        run.result = .ok stored → run.state.find? c.key output =
          (c.doubleSum? limit start input).map fun x => ⟨output, .double x⟩ := by
  constructor
  · intro main per stored run ran measure
    obtain ⟨counter, tallied, found⟩ := find?_of_rollUp
      (AverageCounter.readsOnly_average main per output) rfl (fun _ _ _ => rfl) ran visited free
    rw [found, ← (AverageCounter.addsUp_main main per output).total_of_tally tallied,
      ← (AverageCounter.addsUp_per main per output).total_of_tally tallied, Option.map_map,
      Option.map_eq_some_iff]
    constructor
    · rintro ⟨quotient, averaged, rfl⟩
      obtain ⟨x, y, main, per, divides, rfl⟩ := AverageCounter.average_eq_some_iff.mp averaged
      exact ⟨x, y, main, per, divides, rfl⟩
    · rintro ⟨x, y, main, per, divides, rfl⟩
      exact ⟨x / y, AverageCounter.average_eq_some_iff.mpr ⟨x, y, main, per, divides, rfl⟩, rfl⟩
  · intro input stored run ran
    obtain ⟨counter, tallied, found⟩ := find?_of_rollUp (SumCounter.readsOnly_sum input output) rfl
      (fun _ _ _ => rfl) ran visited free
    rw [found, ← (SumCounter.addsUp_total input output).total_of_tally tallied, Option.map_map]
    rfl

end Formula

namespace DoubleWitnesses

def metrics : Catalog :=
  ⟨[⟨"effort", .float, "Effort"⟩, ⟨"tasks", .float, "Tasks"⟩, ⟨"ratio", .float, "Effort per task"⟩],
    by decide⟩

def file (key : String) (reference : Int32) : Component :=
  .node ⟨key, none, key, .file ⟨reference, none, none⟩ {}⟩ []

def tree : ComponentTree :=
  ⟨.node ⟨"P", none, "P", .project ⟨1, none, none⟩⟩ [file "F" 2, file "G" 3], by decide, by decide⟩

/-- One file has no tasks of its own, so that the divisor of the project comes from the other. -/
def measured : Store metrics :=
  ((((∅ : Store metrics).put "F" "effort" ⟨"effort", .double 6⟩ ⟨_, rfl, rfl, .inr rfl⟩).put
    "F" "tasks" ⟨"tasks", .noValue⟩ ⟨_, rfl, rfl, .inl rfl⟩).put
      "G" "effort" ⟨"effort", .double 4⟩ ⟨_, rfl, rfl, .inr rfl⟩).put
        "G" "tasks" ⟨"tasks", .double 2⟩ ⟨_, rfl, rfl, .inr rfl⟩

def average : Outcome (Store metrics) Nat :=
  Formula.rollUp [.average "effort" "tasks" "ratio"] .file false tree.root measured

def sum : Outcome (Store metrics) Nat :=
  Formula.rollUp [(.sum "effort" "ratio" : Formula (SumCounter Float))] .file false tree.root
    measured

/-- An effort of ten for two tasks. -/
theorem rollUp_average_divides_sums_project :
    tree.root ∈ tree.root.visited .file ∧ measured.find? "P" "ratio" = none ∧
      average.result = .ok 2 ∧ average.state.find? "P" "ratio" = some ⟨"ratio", .double 5⟩ ∧
      sum.result = .ok 3 ∧ sum.state.find? "P" "ratio" = some ⟨"ratio", .double 10⟩ := by
  have visited : tree.root ∈ tree.root.visited .file := List.mem_cons_self
  have free : measured.find? "P" "ratio" = none := by decide +kernel
  have averaged : average.result = .ok 2 := by decide +kernel
  have summed : sum.result = .ok 3 := by decide +kernel
  have effort : tree.root.doubleSum? .file measured "effort" = some 10 := by decide +kernel
  have tasks : tree.root.doubleSum? .file measured "tasks" = some 2 := by decide +kernel
  have five : (10 / 2 : Float) = 5 := by decide +kernel
  obtain ⟨divides, stores⟩ := Formula.rollUp_average_divides_sums tree .file false measured visited
    free
  refine ⟨visited, free, averaged, ?_, summed, ?_⟩
  · exact (divides "effort" "tasks" 2 averaged _).mpr
      ⟨10, 2, effort, tasks, by decide +kernel, by rw [five]⟩
  · have stored := stores "effort" 3 summed
    rw [effort] at stored
    exact stored

end DoubleWitnesses

end Metrology
