import Metrology.Action
import Metrology.Computer.Declaration
import Metrology.Store

/-! # What a computer sees

While it runs on a component a computer sees the store through a context: it can read the metrics it
declares as inputs, and write those it declares as outputs, each at most once.
-/

namespace Metrology

/-- One run of one computer on one component. -/
structure Context where
  /-- The place of the computer in its registry. -/
  computer : Nat
  component : Component
  declaration : Declaration
  /-- The settings the component sees. -/
  settings : Settings
  /-- Whether measures that are added are shown in the log. -/
  traced : Bool

namespace Context

variable {catalog : Catalog}

/-- The measure of the component for a declared input. -/
def measure (context : Context) (store : Store catalog) (metric : String) :
    Except Fault (Option Measure) :=
  if metric ∈ context.declaration.inputs then store.get context.component.key metric
  else .error (.metricNotAllowed context.declaration.inputs.toList .load)

/-- The measures of the children for a declared input, or for an output so that a computer can read
what it stored on the children. -/
def children (context : Context) (store : Store catalog) (metric : String) :
    Except Fault (List Measure) :=
  if metric ∈ context.declaration.inputs ∨ metric ∈ context.declaration.outputs then
    store.ofChildren context.component metric
  else .error (.metricNotAllowed context.declaration.inputs.toList .load)

/-- The measure that a computer would add, or why it may not. -/
def addition (context : Context) (store : Store catalog) (metric : String) (value : Value) :
    Except Fault Measure :=
  if metric ∈ context.declaration.outputs then do
    match ← store.get context.component.key metric with
    | some _ => .error (.measureAlreadyExists metric context.component.key)
    | none => do
      let declared ← catalog.get metric
      Measure.of declared value
  else .error (.metricNotAllowed context.declaration.outputs.toList .add)

/-- Stores a measure for a declared output. -/
def add (context : Context) (metric : String) (value : Value) : Action (Store catalog) Unit := do
  let store ← .get
  let measure ← .ofExcept (context.addition store metric value)
  Action.emitIf context.traced (.measureAdded context.component.key metric measure.value)
  Action.change fun store => store.add context.component.key metric measure

/-- Answers a question; a refusal is an answer and no failure. -/
def answer (context : Context) : (question : Question) → Action (Store catalog) question.Answer
  | .measure metric => fun store => ⟨.ok (context.measure store metric), store, []⟩
  | .children metric => fun store => ⟨.ok (context.children store metric), store, []⟩
  | .add metric value => fun store =>
    let outcome := context.add metric value store
    ⟨.ok outcome.result, outcome.state, outcome.journal⟩
  | .settings => pure context.settings

/-- Carries a consultation out, writing every question and its answer into the journal. -/
def consult {α : Type} (context : Context) : Consultation α → Action (Store catalog) α
  | .done value => pure value
  | .ask question next => do
    let answer ← context.answer question
    Action.note (.exchange ⟨context.computer, context.component.key, question, answer⟩)
    context.consult (next answer)
  | .remark body next => do
    Action.note (.remark body)
    context.consult next

/-- Carries out work that may fail, and fails if it does. -/
def run {α : Type} (context : Context) (work : Consult α) : Action (Store catalog) α := do
  let result ← context.consult work.run
  .ofExcept result

end Context

end Metrology
