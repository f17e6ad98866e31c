import Metrology.Component.Basic

/-! # Drafts of components

A component is built from a draft once its children are known. A draft of a report component needs a
number in the report, one of a views component a key; whatever else is left out has a default. What
is built has all that the draft says of it.
-/

namespace Metrology

namespace Component

/-- The component of the given profile, unless one of the children may not stand below it. -/
def assemble (profile : Profile) (children : List Component) : Except Fault Component :=
  let kind := profile.role.kind
  match children.find? fun child => ¬ kind.Contains child.kind with
  | some child =>
    .error (.invalidComponent profile.key (.misplacedChild child.key child.kind kind))
  | none => .ok (.node profile children)

theorem assemble_eq_ok_iff {profile : Profile} {children : List Component} {c : Component} :
    assemble profile children = .ok c ↔
      c = .node profile children ∧ ∀ child ∈ children, profile.role.kind.Contains child.kind := by
  simp only [assemble]
  split
  · rename_i child misplaced
    have mem := List.mem_of_find?_eq_some misplaced
    have denied := List.find?_some misplaced
    simp only [decide_not, Bool.not_eq_true', decide_eq_false_iff_not] at denied
    simp only [reduceCtorEq, false_iff, not_and]
    exact fun _ placed => denied (placed child mem)
  · rename_i noneMisplaced
    have placed : ∀ child ∈ children, profile.role.kind.Contains child.kind := by
      simpa [List.find?_eq_none] using noneMisplaced
    rw [Except.ok.injEq, eq_comm, and_iff_left placed]

end Component

/-- A component of a report tree in the making. -/
structure ReportDraft where
  kind : ComponentKind
  reference : Int32
  /-- Defaults to the reference in decimal digits. -/
  key : Option String := none
  uuid : Option String := none
  /-- Defaults to the key. -/
  name : Option String := none
  version : Option String := none
  path : Option String := none
  /-- Only files may have them; a file without them is no unit test and has no language. -/
  file : Option FileAttributes := none
  children : List Component := []

namespace ReportDraft

/-- The role a draft describes, or why there is none. -/
def role (draft : ReportDraft) : Except ComponentFlaw Role :=
  let report : ReportAttributes := ⟨draft.reference, draft.version, draft.path⟩
  match draft.kind, draft.file with
  | .file, file => .ok (.file report (file.getD {}))
  | .project, none => .ok (.project report)
  | .module, none => .ok (.module report)
  | .directory, none => .ok (.directory report)
  | .project, some _ | .module, some _ | .directory, some _ => .error .strayFileAttributes
  | kind, _ => .error (.notReportKind kind)

/-- Builds the component of a draft. -/
def build (draft : ReportDraft) : Except Fault Component :=
  let key := draft.key.getD (toString draft.reference.toInt)
  match draft.role with
  | .error flaw => .error (.invalidComponent key flaw)
  | .ok role => Component.assemble ⟨key, draft.uuid, draft.name.getD key, role⟩ draft.children

/-- The component has the kind, the children and the attributes that the draft says, and those by
default which it leaves out. -/
structure Describes (draft : ReportDraft) (c : Component) : Prop where
  kind_eq : c.kind = draft.kind
  children_eq : c.children = draft.children
  key_eq : c.key = draft.key.getD (toString draft.reference.toInt)
  uuid_eq : c.uuid = draft.uuid
  name_eq : c.name = draft.name.getD c.key
  report_eq : c.reportAttributes = .ok ⟨draft.reference, draft.version, draft.path⟩
  file_eq : c.kind = .file → c.fileAttributes = .ok (draft.file.getD {})

theorem of_role_eq_ok {draft : ReportDraft} {role : Role} (h : draft.role = .ok role) :
    role.kind = draft.kind ∧
      role.report? = some ⟨draft.reference, draft.version, draft.path⟩ ∧
      (role.kind = .file → role.file? = some (draft.file.getD {})) := by
  simp only [ReportDraft.role] at h
  split at h <;> cases h <;> simp [Role.kind, Role.report?, Role.file?, *]

/-- A draft builds the component it describes, of children that may stand there. -/
theorem of_build_eq_ok {draft : ReportDraft} {c : Component} (h : draft.build = .ok c) :
    draft.Describes c ∧ ∀ child ∈ c.children, c.kind.Contains child.kind := by
  simp only [build] at h
  split at h
  · contradiction
  · rename_i role hasRole
    obtain ⟨rfl, placed⟩ := Component.assemble_eq_ok_iff.mp h
    obtain ⟨kind, report, file⟩ := of_role_eq_ok hasRole
    refine ⟨⟨kind, rfl, rfl, rfl, rfl, ?_, fun isFile => ?_⟩, placed⟩
    · rw [Component.reportAttributes, Component.profile, report]
      rfl
    · rw [Component.fileAttributes, Component.profile, file isFile]
      rfl

end ReportDraft

/-- A component of a views tree in the making. -/
structure ViewsDraft where
  kind : ComponentKind
  key : String
  uuid : Option String := none
  /-- Defaults to the key. -/
  name : Option String := none
  /-- Project views must have them, others may not. -/
  projectView : Option ProjectViewAttributes := none
  children : List Component := []

namespace ViewsDraft

/-- The role a draft describes, or why there is none. -/
def role (draft : ViewsDraft) : Except ComponentFlaw Role :=
  match draft.kind, draft.projectView with
  | .projectView, some attributes => .ok (.projectView attributes)
  | .projectView, none => .error .missingProjectViewAttributes
  | .view, none => .ok .view
  | .subview, none => .ok .subview
  | .view, some _ | .subview, some _ => .error .strayProjectViewAttributes
  | kind, _ => .error (.notViewsKind kind)

/-- Builds the component of a draft. -/
def build (draft : ViewsDraft) : Except Fault Component :=
  match draft.role with
  | .error flaw => .error (.invalidComponent draft.key flaw)
  | .ok role =>
    Component.assemble ⟨draft.key, draft.uuid, draft.name.getD draft.key, role⟩ draft.children

/-- The component has the kind, the children and the attributes that the draft says, and the key for
a name that it leaves out. -/
structure Describes (draft : ViewsDraft) (c : Component) : Prop where
  kind_eq : c.kind = draft.kind
  children_eq : c.children = draft.children
  key_eq : c.key = draft.key
  uuid_eq : c.uuid = draft.uuid
  name_eq : c.name = draft.name.getD draft.key
  projectView_eq : c.profile.role.projectView? = draft.projectView

theorem of_role_eq_ok {draft : ViewsDraft} {role : Role} (h : draft.role = .ok role) :
    role.kind = draft.kind ∧ role.projectView? = draft.projectView := by
  simp only [ViewsDraft.role] at h
  split at h <;> cases h <;> simp [Role.kind, Role.projectView?, *]

/-- A draft builds the component it describes, of children that may stand there. -/
theorem of_build_eq_ok {draft : ViewsDraft} {c : Component} (h : draft.build = .ok c) :
    draft.Describes c ∧ ∀ child ∈ c.children, c.kind.Contains child.kind := by
  simp only [build] at h
  split at h
  · contradiction
  · rename_i role hasRole
    obtain ⟨rfl, placed⟩ := Component.assemble_eq_ok_iff.mp h
    obtain ⟨kind, projectView⟩ := of_role_eq_ok hasRole
    exact ⟨⟨kind, rfl, rfl, rfl, rfl, projectView⟩, placed⟩

end ViewsDraft

end Metrology
