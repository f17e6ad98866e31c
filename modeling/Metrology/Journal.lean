import Metrology.Computer.Consultation

/-! # The journal of a run

A run writes down what happens: the events that a log shows, the questions of measure computers
with the answers they got, and the remarks they left.
-/

namespace Metrology

/-- How much an event matters. -/
inductive Severity where
  | trace
  | debug
  | info
deriving DecidableEq

instance : Named Severity where
  all := [.trace, .debug, .info]
  label
    | .trace => "TRACE"
    | .debug => "DEBUG"
    | .info => "INFO"

/-- The events that a log shows. -/
inductive Event where
  /-- A crawl enters a component; crawls that know the path to it also tell its depth. -/
  | visiting (component : String) (depth : Option Nat)
  /-- A formula is about to store a measure. -/
  | measureCreated (component metric : String) (value : Value)
  /-- A measure computer is about to store a measure. -/
  | measureAdded (component metric : String) (value : Value)
  | formulasExecuted (formulas measures : Nat)
  | computerExecuted (computer : Nat) (component : String)
  | passStarted (root : String) (components steps : Nat)
  | stepExecuted (step : String) (measures : Nat)
  | passFinished (measures : Nat)

namespace Event

def severity : Event → Severity
  | .visiting .. | .measureCreated .. | .measureAdded .. => .trace
  | .formulasExecuted .. | .computerExecuted .. | .stepExecuted .. => .debug
  | .passStarted .. | .passFinished .. => .info

def message : Event → String
  | .visiting .. => "visiting"
  | .measureCreated .. => "measure created"
  | .measureAdded .. => "measure added"
  | .formulasExecuted .. => "formulas executed"
  | .computerExecuted .. => "measure computer executed"
  | .passStarted .. => "computation pass started"
  | .stepExecuted .. => "step executed"
  | .passFinished .. => "computation pass finished"

/-- What an event tells besides its message, by name. -/
def fields : Event → List (String × Datum)
  | .visiting component none => [("component", .text component)]
  | .visiting component (some depth) => [("component", .text component), ("depth", .int depth)]
  | .measureCreated component metric value | .measureAdded component metric value =>
    [("component", .text component), ("metric", .text metric), ("value", .text value.describe)]
  | .formulasExecuted formulas measures =>
    [("formulas", .int formulas), ("measures", .int measures)]
  | .computerExecuted computer component =>
    [("computer", .int computer), ("component", .text component)]
  | .passStarted root components steps =>
    [("root", .text root), ("components", .int components), ("steps", .int steps)]
  | .stepExecuted step measures => [("step", .text step), ("measures", .int measures)]
  | .passFinished measures => [("measures", .int measures)]

end Event

/-- A question a measure computer asked about a component, and the answer it got. -/
structure Exchange where
  /-- The place of the computer in its registry. -/
  computer : Nat
  component : String
  question : Question
  answer : question.Answer

/-- An entry of the journal. -/
inductive Entry where
  | event (event : Event)
  | exchange (exchange : Exchange)
  | remark (body : Datum)

namespace Entry

def event? : Entry → Option Event
  | .event shown => some shown
  | _ => none

def exchange? : Entry → Option Exchange
  | .exchange held => some held
  | _ => none

def remark? : Entry → Option Datum
  | .remark body => some body
  | _ => none

end Entry

end Metrology
