import Metrology.Catalog
import Metrology.Computer.Declaration

/-! # Registries of measure computers

Computers run in the order they were registered in. Every metric has one computer that writes it at
most, and none of the computers that ran before it reads it.
-/

namespace Metrology

namespace Declaration

/-- The declared metrics are those of the catalog. -/
def Known (catalog : Catalog) (declaration : Declaration) : Prop :=
  ∀ key, key ∈ declaration.inputs ∨ key ∈ declaration.outputs → catalog.contains key = true

/-- `later` writes nothing that `earlier` writes or reads. -/
def Follows (later earlier : Declaration) : Prop :=
  ∀ key ∈ later.outputs, key ∉ earlier.outputs ∧ key ∉ earlier.inputs

/-- The first reason, if any, why a computer of this declaration can not join the computers of the
others. -/
def objection? (catalog : Catalog) (others : List Declaration) (declaration : Declaration) :
    Option Fault :=
  let outputs := declaration.outputs.toList
  match (declaration.inputs.toList ++ outputs).find? fun key => ! catalog.contains key with
  | some key => some (.unknownMetric key)
  | none =>
    match outputs.find? fun key => others.any fun other => other.outputs.contains key with
    | some key => some (.invalidComputer (.outputTaken key))
    | none =>
      match outputs.find? fun key => others.any fun other => other.inputs.contains key with
      | some key => some (.invalidComputer (.outputRead key))
      | none => none

theorem objection?_eq_none_iff {catalog : Catalog} {others : List Declaration}
    {declaration : Declaration} :
    declaration.objection? catalog others = none ↔
      declaration.Known catalog ∧ ∀ other ∈ others, declaration.Follows other := by
  simp only [objection?, Known, Follows]
  split
  · rename_i key found
    have mem := List.mem_of_find?_eq_some found
    have missing := List.find?_some found
    simp only [List.mem_append, Std.ExtTreeSet.mem_toList] at mem
    simp only [Bool.not_eq_true'] at missing
    simp only [reduceCtorEq, false_iff, not_and]
    intro known
    simp [known key mem] at missing
  · rename_i allKnown
    have known : ∀ key, key ∈ declaration.inputs ∨ key ∈ declaration.outputs →
        catalog.contains key = true := by
      simpa [List.find?_eq_none, or_imp, forall_and] using allKnown
    split
    · rename_i key found
      have mem := List.mem_of_find?_eq_some found
      have taken := List.find?_some found
      simp only [Std.ExtTreeSet.mem_toList] at mem
      simp only [List.any_eq_true, Std.ExtTreeSet.contains_iff_mem] at taken
      obtain ⟨other, otherMem, writes⟩ := taken
      simp only [reduceCtorEq, false_iff, not_and]
      exact fun _ follows => (follows other otherMem key mem).1 writes
    · rename_i noneTaken
      simp only [List.find?_eq_none, Std.ExtTreeSet.mem_toList, List.any_eq_true,
        Std.ExtTreeSet.contains_iff_mem, not_exists, not_and] at noneTaken
      split
      · rename_i key found
        have mem := List.mem_of_find?_eq_some found
        have read := List.find?_some found
        simp only [Std.ExtTreeSet.mem_toList] at mem
        simp only [List.any_eq_true, Std.ExtTreeSet.contains_iff_mem] at read
        obtain ⟨other, otherMem, reads⟩ := read
        simp only [reduceCtorEq, false_iff, not_and]
        exact fun _ follows => (follows other otherMem key mem).2 reads
      · rename_i noneRead
        simp only [List.find?_eq_none, Std.ExtTreeSet.mem_toList, List.any_eq_true,
          Std.ExtTreeSet.contains_iff_mem, not_exists, not_and] at noneRead
        simp only [true_iff]
        exact ⟨known, fun other otherMem key mem =>
          ⟨noneTaken key mem other otherMem, noneRead key mem other otherMem⟩⟩

end Declaration

/-- Computers registered against a catalog, in the order of their registration. -/
structure Registry (catalog : Catalog) where
  computers : List Computer := []
  /-- Whatever a computer declares is in the catalog. -/
  known : ∀ computer ∈ computers, computer.declaration.Known catalog := by simp
  /-- No computer writes what an earlier one writes or reads. -/
  ordered : computers.Pairwise fun earlier later =>
    later.declaration.Follows earlier.declaration := by simp

namespace Registry

variable {catalog : Catalog}

/-- The registry with one more computer at its end. -/
def register (registry : Registry catalog) (computer : Computer) :
    Except Fault (Registry catalog) :=
  match h : computer.declaration.objection? catalog
      (registry.computers.map Computer.declaration) with
  | some fault => .error fault
  | none =>
    .ok
      { computers := registry.computers ++ [computer]
        known := by
          have joins := (Declaration.objection?_eq_none_iff.mp h).1
          intro other mem
          rcases List.mem_append.mp mem with mem | mem
          · exact registry.known other mem
          · simp only [List.mem_singleton] at mem
            exact mem ▸ joins
        ordered := by
          have follows := (Declaration.objection?_eq_none_iff.mp h).2
          rw [List.pairwise_append]
          refine ⟨registry.ordered, List.pairwise_singleton _ _, ?_⟩
          intro earlier mem later isLast
          simp only [List.mem_singleton] at isLast
          subst isLast
          exact follows _ (List.mem_map_of_mem mem) }

/-- The number of computers. -/
def size (registry : Registry catalog) : Nat :=
  registry.computers.length

def isEmpty (registry : Registry catalog) : Bool :=
  registry.computers.isEmpty

/-- The registry as it is shown: the declarations of its computers. -/
def describe (registry : Registry catalog) : String :=
  let shown := ", ".intercalate (registry.computers.map fun c => c.declaration.describe)
  s!"[{shown}]"

end Registry

end Metrology
