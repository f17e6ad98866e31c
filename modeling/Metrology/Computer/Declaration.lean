import Std.Data.ExtTreeSet
import Metrology.Computer.Consultation
import Metrology.Text.Blank

/-! # Measure computers and what they declare

A measure computer declares which metrics it reads and which it writes. There must be one that it
writes, and no key may be blank.
-/

namespace Metrology

/-- The metrics a measure computer reads and writes. -/
structure Declaration where
  inputs : Std.ExtTreeSet String
  outputs : Std.ExtTreeSet String

namespace Declaration

/-- The declaration of the given keys; repeated keys count once. -/
def ofKeys (inputs outputs : List String) : Except Fault Declaration :=
  if outputs.isEmpty then .error (.invalidComputer .noOutput)
  else if (inputs ++ outputs).any Text.allBlank then .error (.invalidComputer .blankKey)
  else .ok ⟨Std.ExtTreeSet.ofList inputs, Std.ExtTreeSet.ofList outputs⟩

/-- A set of keys as it is shown. -/
def describeKeys (keys : Std.ExtTreeSet String) : String :=
  let shown := ", ".intercalate (keys.toList.map Text.quoted)
  s!"\x7b{shown}\x7d"

/-- The declaration as it is shown. -/
def describe (declaration : Declaration) : String :=
  let inputs := describeKeys declaration.inputs
  let outputs := describeKeys declaration.outputs
  s!"MeasureComputerDefinition \x7b input_metrics: {inputs}, output_metrics: {outputs} \x7d"

end Declaration

/-- A unit of computation that runs once for every component of a crawl. -/
structure Computer where
  declaration : Declaration
  /-- The work on one component. -/
  compute : Component → Consult Unit

/-- The computer as it is shown: its work can not be. -/
def Computer.describe (computer : Computer) : String :=
  s!"FnMeasureComputer \x7b definition: {computer.declaration.describe}, .. \x7d"

end Metrology
