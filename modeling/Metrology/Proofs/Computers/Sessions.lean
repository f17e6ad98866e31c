import Metrology.Proofs.Computers.Accounts

/-! # Sessions

All that a computer does through its context is a session: one question after the other, each
answered from the store that the ones before have left. Every answer follows a contract, which says
when the question is answered, what is answered, why it is refused otherwise, and what becomes of
the store. A refusal leaves no trace, so that of all values a session offers for a metric at most
one is stored, and stays.
-/

namespace Metrology

open Metrology.Action Store

variable {catalog : Catalog}

/-- Grants what is asked for, unless there are objections; then the first of them is told. -/
def grant {β : Type} (objections : List Fault) (held : β) : Except Fault β :=
  match objections with
  | [] => .ok held
  | fault :: _ => .error fault

theorem grant_eq_ok_iff {β : Type} {objections : List Fault} {held given : β} :
    grant objections held = .ok given ↔ objections = [] ∧ given = held := by
  cases objections <;> simp [grant, eq_comm]

theorem grant_eq_error_iff {β : Type} {objections : List Fault} {held : β} {fault : Fault} :
    grant objections held = .error fault ↔ objections.head? = some fault := by
  cases objections <;> simp [grant]

namespace Context

section Contracts

variable (context : Context)

/-- What stands against reading a metric, the first reason first. -/
def readObjections (catalog : Catalog) (declared : Prop) [Decidable declared] (metric : String) :
    List Fault :=
  (if declared then [] else [.metricNotAllowed context.declaration.inputs.toList .load]) ++
    if (catalog.find? metric).isSome then [] else [.unknownMetric metric]

/-- What stands against adding a value, the first reason first. -/
def addObjections (asked : Store catalog) (metric : String) (value : Value) : List Fault :=
  (if metric ∈ context.declaration.outputs then []
    else [.metricNotAllowed context.declaration.outputs.toList .add]) ++
  (if (catalog.find? metric).isSome then [] else [.unknownMetric metric]) ++
  (if (asked.find? context.component.key metric).isSome then
    [.measureAlreadyExists metric context.component.key] else []) ++
  match catalog.find? metric with
  | some known =>
    if value.Fits known.valueType then []
    else [.valueTypeMismatch metric known.valueType value.type]
  | none => []

/-- A metric is read if it is declared for this and known. -/
structure Reads {β : Type} (catalog : Catalog) (declared : Prop) [Decidable declared]
    (metric : String) (held : β) (answer : Except Fault β) : Prop where
  answered_iff : ∀ given, answer = .ok given ↔
    declared ∧ (∃ known, catalog.find? metric = some known) ∧ given = held
  refused_iff : ∀ fault, answer = .error fault ↔
    (context.readObjections catalog declared metric).head? = some fault

/-- A value is added if its metric is a known output that the component has no measure for, and if
it fits. It takes its slot and nothing else is touched. -/
structure Adds (asked after : Store catalog) (metric : String) (value : Value)
    (answer : Except Fault Unit) : Prop where
  added_iff : answer = .ok () ↔ metric ∈ context.declaration.outputs ∧
    (∃ known, catalog.find? metric = some known ∧ value.Fits known.valueType) ∧
      asked.find? context.component.key metric = none
  stored : answer = .ok () → ∀ component metric', after.find? component metric' =
    if component = context.component.key ∧ metric' = metric then some ⟨metric, value⟩
    else asked.find? component metric'
  refused_iff : ∀ fault, answer = .error fault ↔
    (context.addObjections asked metric value).head? = some fault
  unchanged : ∀ fault, answer = .error fault → after = asked

/-- What a context owes to a question that is asked of one store and leaves another. -/
def Contract (asked after : Store catalog) : (question : Question) → question.Answer → Prop
  | .measure metric, answer =>
    context.Reads catalog (metric ∈ context.declaration.inputs) metric
      (asked.find? context.component.key metric) answer ∧ after = asked
  | .children metric, answer =>
    context.Reads catalog
      (metric ∈ context.declaration.inputs ∨ metric ∈ context.declaration.outputs) metric
      (context.component.children.filterMap fun child => asked.find? child.key metric) answer ∧
        after = asked
  | .add metric value, answer => context.Adds asked after metric value answer
  | .settings, answer => answer = context.settings ∧ after = asked

/-- Questions in a row, each of them asked of the store that those before it have left, and answered
by contract. -/
inductive Session : Store catalog → List Exchange → Store catalog → Prop
  | ended (store : Store catalog) : Session store [] store
  | asked {store after final : Store catalog} {question : Question} {answer : question.Answer}
      {rest : List Exchange} (follows : context.Contract store after question answer)
      (goesOn : Session after rest final) :
      Session store (⟨context.computer, context.component.key, question, answer⟩ :: rest) final

end Contracts

variable {context : Context} {store : Store catalog}

/-! ## Single questions -/

section Reading

variable {declared : Prop} [Decidable declared] {metric : String}

theorem readObjections_eq_nil_iff :
    context.readObjections catalog declared metric = [] ↔
      declared ∧ ∃ known, catalog.find? metric = some known := by
  rw [readObjections, List.append_eq_nil_iff, ← Option.isSome_iff_exists]
  refine and_congr ?_ ?_
  · by_cases isDeclared : declared <;> simp [isDeclared]
  · cases (catalog.find? metric).isSome <;> simp

/-- What is held back by objections only follows the contract for reading. -/
theorem reads_grant {β : Type} (held : β) : context.Reads catalog declared metric held
    (grant (context.readObjections catalog declared metric) held) where
  answered_iff given := by
    rw [grant_eq_ok_iff, readObjections_eq_nil_iff, and_assoc]
  refused_iff fault := grant_eq_error_iff

end Reading

theorem measure_eq_grant (context : Context) (store : Store catalog) (metric : String) :
    context.measure store metric =
      grant (context.readObjections catalog (metric ∈ context.declaration.inputs) metric)
        (store.find? context.component.key metric) := by
  rw [measure, readObjections, Store.get]
  by_cases declared : metric ∈ context.declaration.inputs <;>
    cases catalog.find? metric <;> simp [declared, grant]

theorem children_eq_grant (context : Context) (store : Store catalog) (metric : String) :
    context.children store metric =
      grant (context.readObjections catalog
          (metric ∈ context.declaration.inputs ∨ metric ∈ context.declaration.outputs) metric)
        (context.component.children.filterMap fun child => store.find? child.key metric) := by
  rw [children, readObjections, Store.ofChildren]
  by_cases declared : metric ∈ context.declaration.inputs ∨ metric ∈ context.declaration.outputs <;>
    cases catalog.find? metric <;> simp [declared, grant]

theorem addition_eq_grant (context : Context) (store : Store catalog) (metric : String)
    (value : Value) :
    context.addition store metric value =
      grant (context.addObjections store metric value) ⟨metric, value⟩ := by
  rw [addition, addObjections]
  by_cases declared : metric ∈ context.declaration.outputs
  · rw [if_pos declared, if_pos declared, List.nil_append]
    cases known : catalog.find? metric with
    | none =>
      rw [Store.get, known]
      rfl
    | some found =>
      rw [Store.get_of_find? known]
      cases store.find? context.component.key metric with
      | some measure => rfl
      | none =>
        rw [Catalog.get_of_find? known]
        change Measure.of found value = _
        rw [Measure.of, Catalog.key_of_find? known]
        by_cases fits : value.Fits found.valueType <;> simp [fits, grant]
  · simp [declared, grant]

theorem addObjections_eq_nil_iff {metric : String} {value : Value} :
    context.addObjections store metric value = [] ↔ metric ∈ context.declaration.outputs ∧
      (∃ known, catalog.find? metric = some known ∧ value.Fits known.valueType) ∧
        store.find? context.component.key metric = none := by
  rw [addObjections]
  by_cases declared : metric ∈ context.declaration.outputs
  · cases catalog.find? metric with
    | none => simp
    | some found =>
      cases store.find? context.component.key metric with
      | some measure => simp
      | none => by_cases fits : value.Fits found.valueType <;> simp [declared, fits]
  · simp [declared]

theorem adds_add (context : Context) (store : Store catalog) (metric : String) (value : Value) :
    context.Adds store (context.add metric value store).state metric value
      (context.add metric value store).result := by
  have granted := context.addition_eq_grant store metric value
  cases allowed : context.addition store metric value with
  | ok measure =>
    rw [allowed] at granted
    obtain ⟨free, rfl⟩ := grant_eq_ok_iff.mp granted.symm
    obtain ⟨admits, run⟩ := add_apply_of_ok allowed
    rw [run]
    refine ⟨iff_of_true rfl (addObjections_eq_nil_iff.mp free), fun _ => ?_, fun fault => ?_, ?_⟩
    · exact find?_put store context.component.key metric _ admits
    · simp [free]
    · simp
  | error fault =>
    rw [allowed] at granted
    have objected := grant_eq_error_iff.mp granted.symm
    rw [add_apply_of_error allowed]
    refine ⟨iff_of_false (by simp) fun free => ?_, by simp, fun fault' => ?_, fun _ _ => rfl⟩
    · rw [addObjections_eq_nil_iff.mpr free] at objected
      contradiction
    · simp [objected]

/-- Every answer follows the contract. -/
theorem contract_answer {question : Question} {answer : question.Answer}
    (answered : (context.answer question store).result = .ok answer) :
    context.Contract store (context.answer question store).state question answer := by
  cases question with
  | measure metric =>
    obtain rfl : context.measure store metric = answer := Except.ok.inj answered
    rw [measure_eq_grant]
    exact ⟨reads_grant _, rfl⟩
  | children metric =>
    obtain rfl : context.children store metric = answer := Except.ok.inj answered
    rw [children_eq_grant]
    exact ⟨reads_grant _, rfl⟩
  | add metric value =>
    obtain rfl : (context.add metric value store).result = answer := Except.ok.inj answered
    exact adds_add context store metric value
  | settings =>
    obtain rfl : context.settings = answer := Except.ok.inj answered
    exact ⟨rfl, rfl⟩

/-! ## Whole sessions -/

theorem Session.append {between final : Store catalog} {exchanges rest : List Exchange}
    (first : context.Session store exchanges between)
    (second : context.Session between rest final) :
    context.Session store (exchanges ++ rest) final := by
  induction first with
  | ended store => exact second
  | asked follows _ ih => exact .asked follows (ih second)

/-- The exchanges in a journal are a session. -/
def Serves (context : Context) (before : Store catalog) (journal : List Entry)
    (after : Store catalog) : Prop :=
  context.Session before (journal.filterMap Entry.exchange?) after

instance : IsLedger (@Serves catalog context) where
  nil := .ended
  append first second := by
    rw [Serves, List.filterMap_append]
    exact first.append second

theorem serves_answer {question : Question} {answer : question.Answer}
    (answered : (context.answer question store).result = .ok answer) :
    context.Serves store ((context.answer question store).journal ++
        [.exchange ⟨context.computer, context.component.key, question, answer⟩])
      (context.answer question store).state := by
  have silent : (context.answer question store).journal.filterMap Entry.exchange? = [] := by
    rw [List.filterMap_eq_nil_iff]
    intro entry mem
    cases entry with
    | exchange held => exact absurd mem exchange_not_mem_answer
    | event shown => rfl
    | remark body => rfl
  rw [Serves, List.filterMap_append, silent]
  exact .asked (contract_answer answered) (.ended _)

/-- Whatever is done through a context is a session. -/
theorem serves_consult {α : Type} (context : Context) (work : Consultation α) :
    Accounted context.Serves (context.consult work : Action (Store catalog) α) := by
  induction work with
  | done value => exact Accounted.pure value
  | ask question next ih =>
    intro store
    obtain ⟨answer, answered⟩ := context.exists_answer question store
    rw [consult, bind_apply_ok _ answered]
    have rest := IsLedger.append (serves_answer answered)
      (ih answer (context.answer question store).state)
    rwa [List.append_assoc] at rest
  | remark body next ih =>
    exact Accounted.bind (fun store => Session.ended store) fun _ => ih

theorem exists_result_consult {α : Type} (context : Context) (work : Consultation α)
    (store : Store catalog) : ∃ a, (context.consult work store).result = .ok a := by
  induction work generalizing store with
  | done value => exact ⟨value, rfl⟩
  | ask question next ih =>
    obtain ⟨answer, answered⟩ := context.exists_answer question store
    rw [consult, bind_apply_ok _ answered]
    exact ih answer _
  | remark body next ih => exact ih store

/-- A session goes on after every refusal. All its answers follow the contract, each on the store
that the ones before have left, and for every metric it adds at most one measure, which the
component has from then on. -/
theorem consult_follows_contract {α : Type} (context : Context) (work : Consultation α)
    (store : Store catalog) :
    let session := context.consult work store
    (∃ a, session.result = .ok a) ∧ context.Session store session.exchanges session.state ∧
      ∀ metric,
        let added := session.exchanges.filterMap (Exchange.stored? context.component.key metric)
        added.length ≤ 1 ∧ ∀ measure ∈ added,
          session.state.find? context.component.key metric = some measure := by
  intro session
  refine ⟨exists_result_consult context work store, serves_consult context work store, ?_⟩
  intro metric added
  have same : added = storedIn context.component.key metric session.journal :=
    List.filterMap_filterMap
  have balances := balances_consult context work store context.component.key metric
  rw [← same] at balances
  change _ ++ added = (session.state.find? context.component.key metric).toList at balances
  cases final : session.state.find? context.component.key metric with
  | none =>
    rw [final] at balances
    obtain ⟨-, none⟩ := List.append_eq_nil_iff.mp balances
    simp [none]
  | some measure =>
    rw [final] at balances
    rcases List.append_eq_singleton_iff.mp balances with ⟨-, once⟩ | ⟨-, none⟩
    · simp [once]
    · simp [none]

end Context

namespace SessionWitnesses

def metrics : Catalog :=
  ⟨[⟨"ncloc", .int, "Lines of code"⟩, ⟨"size", .int, "Size"⟩], by decide⟩

def project : Component := .node ⟨"P", none, "P", .project ⟨1, none, none⟩⟩ []

def context : Context where
  computer := 0
  component := project
  declaration := ⟨Std.ExtTreeSet.ofList ["ncloc"], Std.ExtTreeSet.ofList ["size"]⟩
  settings := {}
  traced := false

/-- Tries three sizes, the first of which does not fit, and the last of which comes too late. -/
def work : Consult Unit := do
  tryCatch (Consult.add "size" (.boolean true)) fun _ => pure ()
  tryCatch (Consult.add "size" (.int 2)) fun _ => pure ()
  tryCatch (Consult.add "size" (.int 3)) fun _ => pure ()

def session : Outcome (Store metrics) (Except Fault Unit) := context.consult work.run ∅

def added : List Measure := session.exchanges.filterMap (Exchange.stored? "P" "size")

/-- Whether a measure is that of a size of two. -/
def isTwo : Measure → Bool
  | ⟨"size", .int n⟩ => n == 2
  | _ => false

theorem two_added : ⟨"size", .int 2⟩ ∈ added := by
  have found : added.any isTwo = true := by decide +kernel
  obtain ⟨measure, mem, held⟩ := List.any_eq_true.mp found
  unfold isTwo at held
  split at held
  · rwa [eq_of_beq held] at mem
  · contradiction

/-- Of three sizes the second one is stored, and it is still there when the third was refused. -/
theorem consult_follows_contract_project :
    session.exchanges.length = 3 ∧ context.Session ∅ session.exchanges session.state ∧
      ⟨"size", .int 2⟩ ∈ added ∧ added.length ≤ 1 ∧
      session.state.find? "P" "size" = some ⟨"size", .int 2⟩ := by
  obtain ⟨-, chain, once⟩ := Context.consult_follows_contract context work.run (∅ : Store metrics)
  obtain ⟨single, stays⟩ := once "size"
  exact ⟨by decide +kernel, chain, two_added, single, stays _ two_added⟩

end SessionWitnesses

end Metrology
