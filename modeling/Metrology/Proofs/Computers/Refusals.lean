import Metrology.Proofs.Computers.Accounts
import Metrology.Proofs.Computers.Reads

/-! # What computers are refused

A computer is refused a question for one of three reasons: it has not declared the metric for this
question, the component has a measure already, or the value does not fit the metric. Nothing else
that can go wrong in a store is ever the answer to a computer of a registry, because whatever such a
computer declares is in the catalog, and because a measure is made for the metric it is stored
under and only where none is held.
-/

namespace Metrology

open Metrology.Action Store

variable {catalog : Catalog}

/-- Faults of a store that is asked for a metric, or given a measure, that it should not be. -/
inductive Fault.Internal : Fault → Prop
  | unknownMetric (metric : String) : Internal (.unknownMetric metric)
  | metricMismatch (metric measured : String) : Internal (.metricMismatch metric measured)
  | measureConflict (metric component : String) : Internal (.measureConflict metric component)
  | measureMissing (metric component : String) : Internal (.measureMissing metric component)

/-- Why a question was refused, if the answer is a refusal. -/
def Question.refusal? : (question : Question) → question.Answer → Option Fault
  | .measure _, .error fault => some fault
  | .children _, .error fault => some fault
  | .add _ _, .error fault => some fault
  | .measure _, .ok _ => none
  | .children _, .ok _ => none
  | .add _ _, .ok _ => none
  | .settings, _ => none

/-- Why the question of an exchange was refused, if it was. -/
def Exchange.refusal? (exchange : Exchange) : Option Fault :=
  exchange.question.refusal? exchange.answer

namespace Declaration

/-- The metric of the question is declared for this question: inputs for the measure of the
component, inputs and outputs for those of the children, outputs for what is added. -/
def Permits (declaration : Declaration) : Question → Prop
  | .measure metric => metric ∈ declaration.inputs
  | .children metric => metric ∈ declaration.inputs ∨ metric ∈ declaration.outputs
  | .add metric _ => metric ∈ declaration.outputs
  | .settings => True

/-- The refusal of a question about a metric that is not declared for it. -/
def denial? (declaration : Declaration) : Question → Option Fault
  | .measure _ | .children _ => some (.metricNotAllowed declaration.inputs.toList .load)
  | .add _ _ => some (.metricNotAllowed declaration.outputs.toList .add)
  | .settings => none

/-- The metric of a question that is permitted is in the catalog. -/
theorem exists_find?_of_declared {declaration : Declaration} (known : declaration.Known catalog)
    {key : String} (declared : key ∈ declaration.inputs ∨ key ∈ declaration.outputs) :
    ∃ metric, catalog.find? key = some metric :=
  Catalog.exists_find?_of_contains (known key declared)

end Declaration

/-- The reasons to refuse a permitted question: only additions are refused, and only because there
is a measure already or because the value does not fit. -/
def Question.MayFail (question : Question) (component : String) (fault : Fault) : Prop :=
  ∃ metric value, question = .add metric value ∧
    (fault = .measureAlreadyExists metric component ∨
      ∃ expected, fault = .valueTypeMismatch metric expected value.type)

theorem Question.not_internal_of_mayFail {question : Question} {component : String} {fault : Fault}
    (h : question.MayFail component fault) : ¬ fault.Internal := by
  obtain ⟨metric, value, -, rfl | ⟨expected, rfl⟩⟩ := h
  · rintro ⟨⟩
  · rintro ⟨⟩

theorem Declaration.not_internal_of_denial? {declaration : Declaration} {question : Question}
    {fault : Fault} (h : declaration.denial? question = some fault) : ¬ fault.Internal := by
  cases question with
  | settings => contradiction
  | _ =>
    obtain rfl := Option.some.inj h
    rintro ⟨⟩

namespace Context

variable {context : Context} {store : Store catalog}

/-- What is added for a declared metric of the catalog is refused for one of two reasons. -/
theorem addition_eq_error_of_declared {key : String} {metric : Metric} {value : Value}
    {fault : Fault} (known : catalog.find? key = some metric)
    (declared : key ∈ context.declaration.outputs)
    (refused : context.addition store key value = .error fault) :
    fault = .measureAlreadyExists key context.component.key ∨
      ∃ expected, fault = .valueTypeMismatch key expected value.type := by
  rw [addition, if_pos declared, Store.get_of_find? known] at refused
  cases held : store.find? context.component.key key with
  | some measure =>
    rw [held] at refused
    exact .inl (Except.error.inj refused).symm
  | none =>
    rw [held, Catalog.get_of_find? known] at refused
    replace refused : Measure.of metric value = .error fault := refused
    unfold Measure.of at refused
    split at refused
    · contradiction
    · rw [Catalog.key_of_find? known] at refused
      exact .inr ⟨metric.valueType, (Except.error.inj refused).symm⟩

/-- A question about a metric that is declared for it is answered from every store, unless it would
add a measure that exists already or does not fit. -/
theorem mayFail_of_refusal? {question : Question} {answer : question.Answer} {fault : Fault}
    (known : context.declaration.Known catalog) (permitted : context.declaration.Permits question)
    (answered : (context.answer question store).result = .ok answer)
    (refused : question.refusal? answer = some fault) :
    question.MayFail context.component.key fault := by
  cases question with
  | measure key =>
    obtain ⟨metric, found⟩ := Declaration.exists_find?_of_declared known (.inl permitted)
    obtain rfl : context.measure store key = answer := Except.ok.inj answered
    rw [measure, if_pos (show key ∈ context.declaration.inputs from permitted),
      Store.get_of_find? found] at refused
    contradiction
  | children key =>
    obtain ⟨metric, found⟩ := Declaration.exists_find?_of_declared known permitted
    obtain rfl : context.children store key = answer := Except.ok.inj answered
    rw [children_eq_ok found permitted] at refused
    contradiction
  | add key value =>
    obtain ⟨metric, found⟩ := Declaration.exists_find?_of_declared known (.inr permitted)
    obtain rfl : (context.add key value store).result = answer := Except.ok.inj answered
    cases result : (context.add key value store).result with
    | ok done =>
      rw [result] at refused
      contradiction
    | error fault' =>
      rw [result] at refused
      obtain rfl := Option.some.inj refused
      exact ⟨key, value, rfl,
        addition_eq_error_of_declared found permitted (addition_eq_error result)⟩
  | settings => contradiction

/-- A question about a metric that is not declared for it is refused for this reason, whatever the
store holds and whether the catalog knows the metric or not. -/
theorem refusal?_of_not_permits {question : Question} {answer : question.Answer}
    (denied : ¬ context.declaration.Permits question)
    (answered : (context.answer question store).result = .ok answer) :
    question.refusal? answer = context.declaration.denial? question := by
  cases question with
  | measure key =>
    obtain rfl : context.measure store key = answer := Except.ok.inj answered
    rw [measure, if_neg (show key ∉ context.declaration.inputs from denied)]
    rfl
  | children key =>
    obtain rfl : context.children store key = answer := Except.ok.inj answered
    have undeclared : ¬ (key ∈ context.declaration.inputs ∨ key ∈ context.declaration.outputs) :=
      denied
    rw [children, if_neg undeclared]
    rfl
  | add key value =>
    obtain rfl : (context.add key value store).result = answer := Except.ok.inj answered
    rw [result_add, addition, if_neg (show key ∉ context.declaration.outputs from denied)]
    rfl
  | settings => exact absurd trivial denied

end Context

namespace Registry

variable {settings : SettingsSource} {limit : DepthLimit} {traced : Bool}

/-- Whatever a computer of a registry asks in a crawl, whether the crawl succeeds or not, it is
never answered with an internal fault of the store. A question about a metric that is not declared
for it, in the catalog or not, is always refused because of that, with the metrics that could be
used; any other question can be refused only if it adds a measure that exists already or does not
fit. -/
theorem refusals_are_never_internal (registry : Registry catalog) (settings : SettingsSource)
    (limit : DepthLimit) (traced : Bool) (root : Component) (store : Store catalog)
    {exchange : Exchange}
    (asked : exchange ∈ (registry.execute settings limit traced root store).exchanges) :
    ∃ computer, registry.computers[exchange.computer]? = some computer ∧
      (∀ fault, exchange.refusal? = some fault → ¬ fault.Internal) ∧
      (¬ computer.declaration.Permits exchange.question →
        exchange.refusal? = computer.declaration.denial? exchange.question) ∧
      (computer.declaration.Permits exchange.question → ∀ fault,
        exchange.refusal? = some fault → exchange.question.MayFail exchange.component fault) := by
  obtain ⟨before, c, after, earlier, computer, later, visited, computers, place, component, store',
    -, answered, -⟩ := asked_of_mem_execute asked
  have known : computer.declaration.Known catalog := registry.known computer (by simp [computers])
  have denied : ¬ computer.declaration.Permits exchange.question →
      exchange.refusal? = computer.declaration.denial? exchange.question :=
    fun denied => Context.refusal?_of_not_permits denied answered
  have mayFail : computer.declaration.Permits exchange.question → ∀ fault,
      exchange.refusal? = some fault → exchange.question.MayFail exchange.component fault := by
    intro permitted fault refused
    rw [component]
    exact Context.mayFail_of_refusal? known permitted answered refused
  refine ⟨computer, by simp [place, computers], fun fault refused => ?_, denied, mayFail⟩
  by_cases permitted : computer.declaration.Permits exchange.question
  · exact Question.not_internal_of_mayFail (mayFail permitted fault refused)
  · exact Declaration.not_internal_of_denial? ((denied permitted).symm.trans refused)

end Registry

namespace RefusalWitnesses

def metrics : Catalog :=
  ⟨[⟨"ncloc", .int, "Lines of code"⟩, ⟨"size", .int, "Size"⟩, ⟨"hidden", .int, "Hidden lines"⟩],
    by decide⟩

/-- Tries to read a metric that it has not declared and to add one that the catalog does not even
know, and fails when it adds a truth value for a metric of whole numbers. -/
def prying : Computer where
  declaration := ⟨Std.ExtTreeSet.ofList ["ncloc"], Std.ExtTreeSet.ofList ["size"]⟩
  compute _ := do
    tryCatch (do let _ ← Consult.children "hidden") fun _ => pure ()
    tryCatch (Consult.add "nosuch" (.int 1)) fun _ => pure ()
    Consult.add "size" (.boolean true)

theorem prying_joins : prying.declaration.objection? metrics [] = none := by decide +kernel

def registry : Registry metrics where
  computers := [prying]
  known := by simp [(Declaration.objection?_eq_none_iff.mp prying_joins).1]

def project : Component := .node ⟨"P", none, "P", .project ⟨1, none, none⟩⟩ []

def run : Outcome (Store metrics) Nat :=
  registry.execute (fun _ => {}) .file false project ∅

theorem computer_eq_prying {place : Nat} {computer : Computer}
    (h : registry.computers[place]? = some computer) : computer = prying :=
  List.mem_singleton.mp (List.mem_of_getElem? h)

/-- Whether an exchange is about adding a metric that the catalog does not know. -/
def addsNosuch : Exchange → Bool
  | ⟨_, _, .add metric _, _⟩ => metric == "nosuch"
  | _ => false

/-- Whether an exchange is about adding a size. -/
def addsSize : Exchange → Bool
  | ⟨_, _, .add metric _, .error _⟩ => metric == "size"
  | _ => false

/-- The crawl fails. On the way the computer was told that it may not add a metric that the catalog
does not know, and was refused the truth value for no internal reason. -/
theorem refusals_are_never_internal_project :
    (∃ exchange ∈ run.exchanges, addsNosuch exchange = true ∧
        metrics.contains "nosuch" = false ∧
        exchange.refusal? = some (.metricNotAllowed ["size"] .add)) ∧
      ∃ exchange ∈ run.exchanges, addsSize exchange = true ∧
        ∃ fault, exchange.refusal? = some fault ∧ ¬ fault.Internal := by
  constructor
  · have found : run.exchanges.any addsNosuch = true := by decide +kernel
    obtain ⟨exchange, mem, held⟩ := List.any_eq_true.mp found
    refine ⟨exchange, mem, held, by decide +kernel, ?_⟩
    obtain ⟨computer, asks, -, denied, -⟩ :=
      Registry.refusals_are_never_internal registry (fun _ => {}) .file false project ∅ mem
    obtain rfl := computer_eq_prying asks
    obtain ⟨place, component, question, answer⟩ := exchange
    cases question with
    | add metric value =>
      obtain rfl := eq_of_beq held
      have undeclared : ¬ prying.declaration.Permits (.add "nosuch" value) :=
        (by decide +kernel : "nosuch" ∉ prying.declaration.outputs)
      have outputs : prying.declaration.outputs.toList = ["size"] := by decide +kernel
      rw [denied undeclared, Declaration.denial?, outputs]
    | _ => contradiction
  · have found : run.exchanges.any addsSize = true := by decide +kernel
    obtain ⟨exchange, mem, held⟩ := List.any_eq_true.mp found
    refine ⟨exchange, mem, held, ?_⟩
    obtain ⟨computer, -, outside, -⟩ :=
      Registry.refusals_are_never_internal registry (fun _ => {}) .file false project ∅ mem
    unfold addsSize at held
    split at held
    · rename_i fault
      exact ⟨fault, rfl, outside fault rfl⟩
    · contradiction

end RefusalWitnesses

end Metrology
