import Metrology.Fault

/-! # Components

A component is a node of a tree of components. What a component is besides its place in the tree
stands in its `Profile`; the attributes of its kind are part of its `Role`, so that a file always
has file attributes and nothing else ever does.
-/

namespace Metrology

/-- What a component of a project knows from the report it came with. -/
structure ReportAttributes where
  /-- The number of the component in the report. -/
  reference : Int32
  /-- The version of the project or module. -/
  version : Option String := none
  /-- The path relative to the base directory of the module. -/
  path : Option String := none
deriving DecidableEq

/-- What only files know. -/
structure FileAttributes where
  unitTest : Bool := false
  languageKey : Option String := none
deriving DecidableEq

/-- What only project views know. -/
structure ProjectViewAttributes where
  /-- The identifier of the project the view refers to. -/
  projectUuid : String
deriving DecidableEq

/-- The kind of a component together with the attributes of that kind. -/
inductive Role where
  | project (report : ReportAttributes)
  | module (report : ReportAttributes)
  | directory (report : ReportAttributes)
  | file (report : ReportAttributes) (file : FileAttributes)
  | view
  | subview
  | projectView (attributes : ProjectViewAttributes)
deriving DecidableEq

namespace Role

def kind : Role → ComponentKind
  | .project _ => .project
  | .module _ => .module
  | .directory _ => .directory
  | .file _ _ => .file
  | .view => .view
  | .subview => .subview
  | .projectView _ => .projectView

def report? : Role → Option ReportAttributes
  | .project report | .module report | .directory report | .file report _ => some report
  | .view | .subview | .projectView _ => none

def file? : Role → Option FileAttributes
  | .file _ attributes => some attributes
  | _ => none

def projectView? : Role → Option ProjectViewAttributes
  | .projectView attributes => some attributes
  | _ => none

end Role

/-- Everything about a component except its children. -/
structure Profile where
  /-- Identifies the component. -/
  key : String
  uuid : Option String
  /-- The name shown to people. -/
  name : String
  role : Role
deriving DecidableEq

/-- A component with its children, in order. -/
inductive Component where
  | node (profile : Profile) (children : List Component)

namespace Component

def profile : Component → Profile
  | .node profile _ => profile

def children : Component → List Component
  | .node _ children => children

def key (c : Component) : String := c.profile.key

def uuid (c : Component) : Option String := c.profile.uuid

def name (c : Component) : String := c.profile.name

def kind (c : Component) : ComponentKind := c.profile.role.kind

/-- Whether the component has no children. -/
def isLeaf (c : Component) : Bool := c.children.isEmpty

/-- The number of the component in its report; components of views have none. -/
def reference? (c : Component) : Option Int32 :=
  c.profile.role.report?.map ReportAttributes.reference

/-- The attributes, or the fault that a component of this kind has none of the group. -/
def orUnavailable {α : Type} (c : Component) (attributes : AttributeGroup) :
    Option α → Except Fault α
  | some a => .ok a
  | none => .error (.attributesUnavailable c.kind attributes)

def reportAttributes (c : Component) : Except Fault ReportAttributes :=
  c.orUnavailable .report c.profile.role.report?

def fileAttributes (c : Component) : Except Fault FileAttributes :=
  c.orUnavailable .file c.profile.role.file?

def projectViewAttributes (c : Component) : Except Fault ProjectViewAttributes :=
  c.orUnavailable .projectView c.profile.role.projectView?

/-- Components are told apart by their keys alone. -/
instance : BEq Component where
  beq c d := c.key == d.key

instance : Hashable Component where
  hash c := hash c.key

mutual

/-- The component and all components below it, each before its children. -/
def preorder : Component → List Component
  | .node profile children => .node profile children :: preorderAll children

/-- The components of a list of trees, one tree after the other. -/
def preorderAll : List Component → List Component
  | [] => []
  | c :: cs => preorder c ++ preorderAll cs

end

/-- All components below the given one, each before its children. -/
def descendants (c : Component) : List Component :=
  preorderAll c.children

end Component

end Metrology
