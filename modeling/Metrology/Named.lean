/-! # Named alternatives

Finite types whose members have names of their own in texts and in data.
-/

namespace Metrology

/-- A finite type together with the name of each member. -/
class Named (α : Type) where
  /-- All members, in their usual order. -/
  all : List α
  /-- The name a member is written under. -/
  label : α → String
  /-- All members are listed, and no two have the same name. -/
  find?_label : ∀ a, (all.find? fun b => label b == label a) = some a := by
    intro a
    cases a <;> rfl

/-- The member of the given name. -/
def Named.ofLabel? {α : Type} [Named α] (s : String) : Option α :=
  all.find? fun a => label a == s

@[simp]
theorem Named.ofLabel?_label {α : Type} [Named α] (a : α) : ofLabel? (label a) = some a :=
  find?_label a

end Metrology
