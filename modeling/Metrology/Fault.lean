import Metrology.Component.Kind
import Metrology.Value

/-! # Faults

Everything that can go wrong while measures are set up, read, stored or computed, and the message
of each fault.
-/

namespace Metrology

/-- The groups of attributes that only some components have. -/
inductive AttributeGroup where
  | report
  | file
  | projectView
deriving DecidableEq

/-- What makes a component impossible to build. -/
inductive ComponentFlaw where
  | notReportKind (kind : ComponentKind)
  | notViewsKind (kind : ComponentKind)
  | strayFileAttributes
  | missingProjectViewAttributes
  | strayProjectViewAttributes
  | misplacedChild (child : String) (childKind parentKind : ComponentKind)
deriving DecidableEq

/-- What a measure computer may do with a metric it declares. -/
inductive MetricUse where
  | load
  | add
deriving DecidableEq

/-- What makes a measure computer unfit to be declared or registered. -/
inductive ComputerFlaw where
  | noOutput
  | blankKey
  | outputTaken (metric : String)
  | outputRead (metric : String)
deriving DecidableEq

/-- The causes of failure. -/
inductive Fault where
  | unknownMetric (metric : String)
  | duplicateMetric (metric : String)
  | unknownComponent (component : String)
  | unknownReference (reference : Int32)
  | duplicateComponent (component : String)
  | duplicateReference (reference : Int32)
  | invalidComponent (component : String) (flaw : ComponentFlaw)
  | attributesUnavailable (kind : ComponentKind) (attributes : AttributeGroup)
  | valueTypeMismatch (metric : String) (expected actual : ValueType)
  | wrongValueAccess (requested actual : ValueType)
  | metricMismatch (metric measured : String)
  | measureConflict (metric component : String)
  | measureMissing (metric component : String)
  | metricNotAllowed (allowed : List String) (use : MetricUse)
  | measureAlreadyExists (metric component : String)
  | invalidComputer (flaw : ComputerFlaw)
  | sumOverflow (metric : String)
  | computationFailed (component reason : String)
deriving DecidableEq

def AttributeGroup.label : AttributeGroup → String
  | .report => "report"
  | .file => "file"
  | .projectView => "project view"

def ComponentFlaw.message : ComponentFlaw → String
  | .notReportKind kind => s!"{Named.label kind} is not a report type"
  | .notViewsKind kind => s!"{Named.label kind} is not a views type"
  | .strayFileAttributes => "only files carry file attributes"
  | .missingProjectViewAttributes => "a project view requires project view attributes"
  | .strayProjectViewAttributes => "only project views carry project view attributes"
  | .misplacedChild child childKind parentKind =>
    s!"child '{child}' of type {Named.label childKind} can not be added to a " ++
      Named.label parentKind

def MetricUse.label : MetricUse → String
  | .load => "load"
  | .add => "add"

def ComputerFlaw.message : ComputerFlaw → String
  | .noOutput => "at least one output metric must be defined"
  | .blankKey => "metric keys can not be blank"
  | .outputTaken metric =>
    s!"output metric '{metric}' is already computed by another measure computer"
  | .outputRead metric =>
    s!"output metric '{metric}' is read by a measure computer registered earlier"

/-- The text a fault is reported with. -/
def Fault.message : Fault → String
  | .unknownMetric metric => s!"metric '{metric}' does not exist"
  | .duplicateMetric metric => s!"metric '{metric}' is defined more than once"
  | .unknownComponent component => s!"component '{component}' does not exist in the tree"
  | .unknownReference reference => s!"no component with ref {reference.toInt} in the tree"
  | .duplicateComponent component =>
    s!"component key '{component}' is used by more than one component"
  | .duplicateReference reference =>
    s!"component ref {reference.toInt} is used by more than one component"
  | .invalidComponent component flaw => s!"invalid component '{component}': {flaw.message}"
  | .attributesUnavailable kind attributes =>
    s!"a component of type {Named.label kind} does not have {attributes.label} attributes"
  | .valueTypeMismatch metric expected actual =>
    s!"value of type {Named.label actual} does not fit metric '{metric}' of value type " ++
      Named.label expected
  | .wrongValueAccess requested actual =>
    s!"value can not be converted to {Named.label requested} because current value type is " ++
      Named.label actual
  | .metricMismatch metric measured =>
    s!"measure of metric '{measured}' can not be stored under metric '{metric}'"
  | .measureConflict metric component =>
    s!"a raw measure for metric '{metric}' already exists on component '{component}'"
  | .measureMissing metric component =>
    s!"no raw measure for metric '{metric}' exists on component '{component}'"
  | .metricNotAllowed allowed use =>
    let metrics := ", ".intercalate allowed
    s!"Only metrics in [{metrics}] can be used to {use.label} measures"
  | .measureAlreadyExists metric component =>
    s!"A measure on metric '{metric}' already exists on component '{component}'"
  | .invalidComputer flaw => s!"invalid measure computer: {flaw.message}"
  | .sumOverflow metric => s!"sum of metric '{metric}' overflows its value type"
  | .computationFailed component reason =>
    s!"measure computer failed on component '{component}': {reason}"

end Metrology
