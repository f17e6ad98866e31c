import Metrology.Proofs.Indexing

/-! # The shape of component trees

Each draft looks no further than the children it is given, and yet the trees that are built obey a
law that spans them from the root down: there is one family, and along every path the kinds get
deeper, except where modules nest in modules and sub-views in sub-views. No other law holds of them:
every tree of such a shape can be built.
-/

namespace Metrology

/-! ## Kinds below one another -/

namespace ComponentKind

theorem eq_of_depth_eq {a b : ComponentKind} (sameFamily : a.family = b.family)
    (sameDepth : a.depth = b.depth) : a = b := by
  cases a <;> cases b <;> first | rfl | contradiction

theorem Contains.trans {a b c : ComponentKind} (first : a.Contains b) (second : b.Contains c) :
    a.Contains c := by
  rcases first with ⟨sameFamily, deeper⟩ | ⟨rfl, -⟩
  · obtain ⟨sameFamily', noHigher⟩ := near_of_contains second
    exact .inl ⟨sameFamily'.trans sameFamily, Nat.lt_of_lt_of_le deeper noHigher⟩
  · exact second

theorem nests_iff {kind : ComponentKind} :
    kind.nests = true ↔ kind = .module ∨ kind = .subview := by
  cases kind <;> decide

/-- The step from a component to one that may stand below it leads down, or from a module to a
module, or from a sub-view to a sub-view. -/
theorem contains_iff {a b : ComponentKind} :
    a.Contains b ↔ b.family = a.family ∧
      (a.depth < b.depth ∨ a = b ∧ (a = .module ∨ a = .subview)) := by
  rw [Contains, DeeperThan, SameFamily, nests_iff]
  constructor
  · rintro (⟨sameFamily, deeper⟩ | ⟨rfl, nests⟩)
    · exact ⟨sameFamily, .inl deeper⟩
    · exact ⟨rfl, .inr ⟨rfl, nests⟩⟩
  · rintro ⟨sameFamily, deeper | ⟨rfl, nests⟩⟩
    · exact .inl ⟨sameFamily, deeper⟩
    · exact .inr ⟨rfl, nests⟩

theorem not_contains_project {a : ComponentKind} : ¬ a.Contains .project := by
  cases a <;> decide

theorem not_contains_view {a : ComponentKind} : ¬ a.Contains .view := by
  cases a <;> decide

theorem not_file_contains {b : ComponentKind} : ¬ file.Contains b := by
  cases b <;> decide

theorem not_projectView_contains {b : ComponentKind} : ¬ projectView.Contains b := by
  cases b <;> decide

end ComponentKind

namespace Component

/-! ## What stands below a component -/

theorem mem_preorder_iff {c d : Component} : d ∈ c.preorder ↔ d = c ∨ d ∈ c.descendants := by
  cases c
  exact List.mem_cons

theorem mem_descendants_iff {c d : Component} :
    d ∈ c.descendants ↔ ∃ child ∈ c.children, d ∈ child.preorder := by
  rw [descendants, preorderAll_eq_flatMap, List.mem_flatMap]

theorem follow?_append (c : Component) (path below : List Nat) :
    c.follow? (path ++ below) = (c.follow? path).bind fun d => d.follow? below := by
  induction path generalizing c with
  | nil => rfl
  | cons position path ih =>
    rw [List.cons_append, follow?, follow?]
    cases c.children[position]? with
    | none => rfl
    | some child => exact ih child

theorem follow?_singleton_iff {c child : Component} {position : Nat} :
    c.follow? [position] = some child ↔ c.children[position]? = some child := by
  cases isChild : c.children[position]? <;> simp [follow?, isChild]

/-- A path that does not end where it begins leads down. -/
theorem mem_descendants_of_follow? {c d : Component} {path : List Nat} (down : path ≠ [])
    (leads : c.follow? path = some d) : d ∈ c.descendants := by
  cases path with
  | nil => exact absurd rfl down
  | cons position path =>
    obtain ⟨child, isChild, leads⟩ := Option.bind_eq_some_iff.mp leads
    exact mem_descendants_iff.mpr
      ⟨child, List.mem_of_getElem? isChild, mem_preorder_iff_follow?.mpr ⟨path, leads⟩⟩

theorem wellFormed_of_mem_preorder {c d : Component} (wellFormed : c.WellFormed)
    (mem : d ∈ c.preorder) : d.WellFormed := by
  induction c with
  | node profile children ih =>
    rcases mem_preorder_iff.mp mem with rfl | mem
    · exact wellFormed
    · obtain ⟨child, isChild, mem⟩ := mem_descendants_iff.mp mem
      cases wellFormed with
      | node placed below => exact ih child isChild (below child isChild) mem

/-- What stands anywhere below a component might stand directly in it. -/
theorem contains_of_mem_descendants {c d : Component} (wellFormed : c.WellFormed)
    (mem : d ∈ c.descendants) : c.kind.Contains d.kind := by
  induction c with
  | node profile children ih =>
    obtain ⟨child, isChild, mem⟩ := mem_descendants_iff.mp mem
    cases wellFormed with
    | node placed below =>
      rcases mem_preorder_iff.mp mem with rfl | mem
      · exact placed d isChild
      · exact (placed child isChild).trans (ih child isChild (below child isChild) mem)

theorem contains_of_leads_down {root d : Component} {path : List Nat} (wellFormed : root.WellFormed)
    (leads : root.follow? path = some d) (down : path ≠ []) : root.kind.Contains d.kind :=
  contains_of_mem_descendants wellFormed (mem_descendants_of_follow? down leads)

/-- What a path leads down to from a component of a well-formed tree might stand directly in it. -/
theorem contains_of_follow? {root c d : Component} {path below : List Nat}
    (wellFormed : root.WellFormed) (leads : root.follow? path = some c)
    (leads' : root.follow? (path ++ below) = some d) (down : below ≠ []) :
    c.kind.Contains d.kind := by
  rw [follow?_append, leads, Option.bind_some] at leads'
  have inTree : c ∈ root.preorder := mem_preorder_iff_follow?.mpr ⟨path, leads⟩
  exact contains_of_leads_down (wellFormed_of_mem_preorder wellFormed inTree) leads' down

/-! ## The law of shapes -/

/-- The whole tree is of one family, and along every path from the root the kinds get deeper, except
that a module may follow a module and a sub-view a sub-view. -/
structure Shapely (root : Component) : Prop where
  family_eq : ∀ {path : List Nat} {c : Component}, root.follow? path = some c →
    c.kind.family = root.kind.family
  descends : ∀ {path below : List Nat} {c d : Component}, root.follow? path = some c →
    root.follow? (path ++ below) = some d → below ≠ [] →
      c.kind.depth < d.kind.depth ∨
        c.kind = d.kind ∧ (c.kind = .module ∨ c.kind = .subview)

theorem Shapely.child {root child : Component} {position : Nat} (shapely : root.Shapely)
    (isChild : root.children[position]? = some child) : child.Shapely := by
  have leads : ∀ path, root.follow? (position :: path) = child.follow? path := by
    intro path
    rw [follow?, isChild, Option.bind_some]
  have sameFamily : child.kind.family = root.kind.family := shapely.family_eq (leads [])
  constructor
  · intro path c here
    exact (shapely.family_eq ((leads path).trans here)).trans sameFamily.symm
  · intro path below c d here there down
    exact shapely.descends ((leads path).trans here) ((leads (path ++ below)).trans there) down

/-- The law for all paths holds as soon as each child may stand below its parent. -/
theorem shapely_iff_wellFormed {root : Component} : root.Shapely ↔ root.WellFormed := by
  constructor
  · intro shapely
    induction root with
    | node profile children ih =>
      constructor
      · intro child mem
        obtain ⟨position, isChild⟩ := List.mem_iff_getElem?.mp mem
        have leads : (node profile children).follow? [position] = some child :=
          follow?_singleton_iff.mpr isChild
        have here : (node profile children).follow? [] = some (node profile children) := rfl
        exact ComponentKind.contains_iff.mpr ⟨shapely.family_eq leads,
          shapely.descends here leads (List.cons_ne_nil _ _)⟩
      · intro child mem
        obtain ⟨position, isChild⟩ := List.mem_iff_getElem?.mp mem
        exact ih child mem (shapely.child isChild)
  · intro wellFormed
    constructor
    · intro path c leads
      cases path with
      | nil => rw [Option.some.inj leads]
      | cons position path =>
        exact (ComponentKind.contains_iff.mp
          (contains_of_leads_down wellFormed leads (List.cons_ne_nil _ _))).1
    · intro path below c d here there down
      exact (ComponentKind.contains_iff.mp (contains_of_follow? wellFormed here there down)).2

/-! ## Building -/

/-- What drafts build whose children are built from drafts in turn. -/
inductive Built : Component → Prop
  | report {draft : ReportDraft} {c : Component}
      (children : ∀ child ∈ draft.children, Built child) (build : draft.build = .ok c) : Built c
  | views {draft : ViewsDraft} {c : Component}
      (children : ∀ child ∈ draft.children, Built child) (build : draft.build = .ok c) : Built c

/-- Every profile is that of some draft. -/
theorem exists_draft (profile : Profile) (children : List Component) :
    (∃ draft : ReportDraft, draft.children = children ∧
        draft.build = assemble profile children) ∨
      ∃ draft : ViewsDraft, draft.children = children ∧
        draft.build = assemble profile children := by
  obtain ⟨key, uuid, name, role⟩ := profile
  cases role with
  | project report =>
    exact .inl ⟨⟨.project, report.reference, key, uuid, name, report.version, report.path, none,
      children⟩, rfl, rfl⟩
  | module report =>
    exact .inl ⟨⟨.module, report.reference, key, uuid, name, report.version, report.path, none,
      children⟩, rfl, rfl⟩
  | directory report =>
    exact .inl ⟨⟨.directory, report.reference, key, uuid, name, report.version, report.path, none,
      children⟩, rfl, rfl⟩
  | file report attributes =>
    exact .inl ⟨⟨.file, report.reference, key, uuid, name, report.version, report.path, attributes,
      children⟩, rfl, rfl⟩
  | view => exact .inr ⟨⟨.view, key, uuid, name, none, children⟩, rfl, rfl⟩
  | subview => exact .inr ⟨⟨.subview, key, uuid, name, none, children⟩, rfl, rfl⟩
  | projectView attributes =>
    exact .inr ⟨⟨.projectView, key, uuid, name, attributes, children⟩, rfl, rfl⟩

theorem built_iff_wellFormed {root : Component} : root.Built ↔ root.WellFormed := by
  constructor
  · intro built
    induction built with
    | report _ build below => exact ReportDraft.wellFormed_of_build below build
    | views _ build below => exact ViewsDraft.wellFormed_of_build below build
  · intro wellFormed
    induction wellFormed with
    | @node profile children placed _ below =>
      have assembled : assemble profile children = .ok (.node profile children) :=
        assemble_eq_ok_iff.mpr ⟨rfl, placed⟩
      rcases exists_draft profile children with ⟨draft, rfl, build⟩ | ⟨draft, rfl, build⟩
      · exact .report below (build.trans assembled)
      · exact .views below (build.trans assembled)

/-! ## Attributes -/

theorem exists_reportAttributes_iff {c : Component} :
    (∃ attributes, c.reportAttributes = .ok attributes) ↔ c.kind.family = .report := by
  obtain ⟨⟨key, uuid, name, role⟩, children⟩ := c
  cases role <;> simp [reportAttributes, orUnavailable, Role.report?, profile, kind, Role.kind,
    ComponentKind.family]

theorem exists_fileAttributes_iff {c : Component} :
    (∃ attributes, c.fileAttributes = .ok attributes) ↔ c.kind = .file := by
  obtain ⟨⟨key, uuid, name, role⟩, children⟩ := c
  cases role <;> simp [fileAttributes, orUnavailable, Role.file?, profile, kind, Role.kind]

theorem exists_projectViewAttributes_iff {c : Component} :
    (∃ attributes, c.projectViewAttributes = .ok attributes) ↔ c.kind = .projectView := by
  obtain ⟨⟨key, uuid, name, role⟩, children⟩ := c
  cases role <;> simp [projectViewAttributes, orUnavailable, Role.projectView?, profile, kind,
    Role.kind]

/-- The components that drafts build are those of the lawful shapes, whatever their keys, names and
attributes. So projects and views are found at the root only, one directory at most on every path
and nothing below files and project views; and each component has the attributes of its kind and no
others. -/
theorem built_iff_shapely (root : Component) :
    (root.Built ↔ root.Shapely) ∧
    (root.Built → ∀ path c, root.follow? path = some c →
      (c.kind = .project ∨ c.kind = .view → path = []) ∧
      (∀ below d, root.follow? (path ++ below) = some d →
        c.kind = .directory → d.kind = .directory → below = []) ∧
      (c.kind = .file ∨ c.kind = .projectView → c.children = []) ∧
      ((∃ attributes, c.reportAttributes = .ok attributes) ↔ c.kind.family = .report) ∧
      ((∃ attributes, c.fileAttributes = .ok attributes) ↔ c.kind = .file) ∧
      ((∃ attributes, c.projectViewAttributes = .ok attributes) ↔ c.kind = .projectView)) := by
  refine ⟨built_iff_wellFormed.trans shapely_iff_wellFormed.symm, ?_⟩
  intro built path c leads
  have wellFormed := built_iff_wellFormed.mp built
  refine ⟨?_, ?_, ?_, exists_reportAttributes_iff, exists_fileAttributes_iff,
    exists_projectViewAttributes_iff⟩
  · intro top
    by_contra down
    have placed := contains_of_leads_down wellFormed leads down
    rcases top with top | top
    · exact ComponentKind.not_contains_project (top ▸ placed)
    · exact ComponentKind.not_contains_view (top ▸ placed)
  · intro below d leads' outer inner
    by_contra down
    have placed := contains_of_follow? wellFormed leads leads' down
    rw [outer, inner] at placed
    exact absurd placed (by decide)
  · intro bottom
    refine List.eq_nil_iff_forall_not_mem.mpr fun child mem => ?_
    obtain ⟨position, isChild⟩ := List.mem_iff_getElem?.mp mem
    have leads' : root.follow? (path ++ [position]) = some child := by
      rw [follow?_append, leads, Option.bind_some]
      exact follow?_singleton_iff.mpr isChild
    have placed := contains_of_follow? wellFormed leads leads' (List.cons_ne_nil _ _)
    rcases bottom with bottom | bottom
    · exact ComponentKind.not_file_contains (bottom ▸ placed)
    · exact ComponentKind.not_projectView_contains (bottom ▸ placed)

end Component

namespace ShapeWitnesses

def file : ReportDraft := { kind := .file, reference := 3, key := "F" }

def fileBuilt : Component := .node ⟨"F", none, "F", .file ⟨3, none, none⟩ {}⟩ []

def inner : ReportDraft := { kind := .module, reference := 2, key := "B", children := [fileBuilt] }

def innerBuilt : Component := .node ⟨"B", none, "B", .module ⟨2, none, none⟩⟩ [fileBuilt]

/-- A module with a file, inside a module. -/
def outer : ReportDraft := { kind := .module, reference := 1, key := "A", children := [innerBuilt] }

def outerBuilt : Component := .node ⟨"A", none, "A", .module ⟨1, none, none⟩⟩ [innerBuilt]

def nestedInner : Component := .node ⟨"E", none, "E", .directory ⟨2, none, none⟩⟩ []

/-- A directory inside a directory. -/
def nested : Component := .node ⟨"D", none, "D", .directory ⟨1, none, none⟩⟩ [nestedInner]

/-- Modules nest, and the file in them has its attributes and nothing below it. That a directory
lies in a directory can not come about. -/
theorem built_iff_shapely_modules :
    outerBuilt.Built ∧ outerBuilt.Shapely ∧ outerBuilt.follow? [0, 0] = some fileBuilt ∧
      fileBuilt.children = [] ∧ (∃ attributes, fileBuilt.fileAttributes = .ok attributes) ∧
      (¬ ∃ attributes, fileBuilt.projectViewAttributes = .ok attributes) ∧ ¬ nested.Built := by
  have buildFile : file.build = .ok fileBuilt := rfl
  have buildInner : inner.build = .ok innerBuilt := rfl
  have buildOuter : outer.build = .ok outerBuilt := rfl
  have builtFile : fileBuilt.Built := .report (by simp [file]) buildFile
  have builtInner : innerBuilt.Built := .report (by simpa [inner] using builtFile) buildInner
  have builtOuter : outerBuilt.Built := .report (by simpa [outer] using builtInner) buildOuter
  have leads : outerBuilt.follow? [0, 0] = some fileBuilt := rfl
  obtain ⟨-, -, bottom, -, file, projectView⟩ :=
    (Component.built_iff_shapely outerBuilt).2 builtOuter [0, 0] fileBuilt leads
  refine ⟨builtOuter, (Component.built_iff_shapely outerBuilt).1.mp builtOuter, leads,
    bottom (.inl rfl), file.mpr rfl, fun held => ?_, fun built => ?_⟩
  · exact absurd (projectView.mp held) (by decide)
  · have shapely := (Component.built_iff_shapely nested).1.mp built
    have here : nested.follow? [] = some nested := rfl
    have below : nested.follow? [0] = some nestedInner := rfl
    exact absurd (shapely.descends here below (List.cons_ne_nil _ _)) (by decide)

end ShapeWitnesses

end Metrology
