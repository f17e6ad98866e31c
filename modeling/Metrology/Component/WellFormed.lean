import Metrology.Component.Draft

/-! # Well-formed components

In a well-formed component every child is of a kind that may stand below its parent. Drafts whose
children are well-formed build nothing else.
-/

namespace Metrology

namespace Component

/-- Every component stands where its kind may stand. -/
inductive WellFormed : Component → Prop
  | node {profile : Profile} {children : List Component}
      (placed : ∀ child ∈ children, profile.role.kind.Contains child.kind)
      (below : ∀ child ∈ children, WellFormed child) : WellFormed (.node profile children)

theorem wellFormed_of_children {c : Component}
    (placed : ∀ child ∈ c.children, c.kind.Contains child.kind)
    (below : ∀ child ∈ c.children, child.WellFormed) : c.WellFormed := by
  cases c
  exact .node placed below

end Component

theorem ReportDraft.wellFormed_of_build {draft : ReportDraft} {c : Component}
    (below : ∀ child ∈ draft.children, child.WellFormed) (h : draft.build = .ok c) :
    c.WellFormed := by
  obtain ⟨described, placed⟩ := of_build_eq_ok h
  exact Component.wellFormed_of_children placed (described.children_eq ▸ below)

theorem ViewsDraft.wellFormed_of_build {draft : ViewsDraft} {c : Component}
    (below : ∀ child ∈ draft.children, child.WellFormed) (h : draft.build = .ok c) :
    c.WellFormed := by
  obtain ⟨described, placed⟩ := of_build_eq_ok h
  exact Component.wellFormed_of_children placed (described.children_eq ▸ below)

end Metrology
