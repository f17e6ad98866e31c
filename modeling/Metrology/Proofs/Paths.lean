import Mathlib.Data.List.Infix
import Metrology.Proofs.Itineraries
import Metrology.Proofs.RelatedCrawls

/-! # Elements along paths

What a path visitor does in a crawl can be recorded without changing the crawl. From such a record
follows which element every place of the tree has at any moment: the one that was created for it, as
changed by the calls since. A path stands right at such a moment if it leads to the place that is
visited and has the elements of all places on the way.
-/

namespace Metrology

open Metrology.Action Component

variable {σ ε : Type}

/-! ## What a crawl does -/

/-- What a path visitor does at a stop. -/
inductive Deed (ε : Type) where
  /-- It gives an element to a component. -/
  | created (component : Component) (element : ε)
  /-- It is called at the end of a path and leaves other elements there, or fails. -/
  | called (callback : Callback) (path : Path ε) (left : Except Fault (Ends ε))

namespace Deed

/-- The component that the deed is about. -/
def component : Deed ε → Component
  | .created component _ => component
  | .called _ path _ => path.current.component

def callback? : Deed ε → Option Callback
  | .created _ _ => none
  | .called callback _ _ => some callback

/-- The fault with which the deed ends the crawl, if it does. -/
def fault? : Deed ε → Option Fault
  | .called _ _ (.error fault) => some fault
  | _ => none

/-- The visitor does this in the state `before` and is in the state `after` then. -/
def Leads (v : PathVisitor σ ε) (before after : σ) : Deed ε → Prop
  | .created component element => v.create component before = (element, after)
  | .called callback path left =>
    (v.call callback path before).result = left ∧ (v.call callback path before).state = after

end Deed

/-- A state, and what a visitor has done. -/
structure Observed (σ ε : Type) where
  state : σ
  deeds : List (Deed ε)

namespace PathVisitor

/-- The visitor, with a record of what it does. -/
def observed (v : PathVisitor σ ε) : PathVisitor (Observed σ ε) ε where
  order := v.order
  limit := v.limit
  create c s :=
    let (element, state) := v.create c s.state
    (element, ⟨state, s.deeds ++ [.created c element]⟩)
  call callback path s :=
    let outcome := v.call callback path s.state
    ⟨outcome.result, ⟨outcome.state, s.deeds ++ [.called callback path outcome.result]⟩,
      outcome.journal⟩

/-! ## The record changes nothing -/

variable (v : PathVisitor σ ε)

theorem mirrors_dispatch (path : Path ε) :
    Mirrors Observed.state (v.observed.dispatch path) (v.dispatch path) :=
  related_dispatch (v := v.observed) (w := v) (compatible_mirrors Observed.state)
    (fun _ _ _ => ⟨rfl, rfl, rfl⟩) path

/-- A crawl whose visitor is observed ends as without the record, in the same state, and writes the
same. -/
theorem mirrors_crawl (root : Component) :
    Mirrors Observed.state (v.observed.crawl root) (v.crawl root) :=
  related_crawl (v := v.observed) (w := v) (compatible_mirrors Observed.state) rfl rfl
    (fun _ _ => ⟨rfl, rfl, rfl⟩) (fun _ _ _ => ⟨rfl, rfl, rfl⟩) root

end PathVisitor

/-! ## Elements by places -/

/-- A deed and the place it was done at. -/
structure Moment (ε : Type) where
  /-- The child positions that lead from the root to the component. -/
  place : List Nat
  deed : Deed ε

namespace Moment

/-- The stop at which the deed is done. -/
def stop (m : Moment ε) : Stop :=
  ⟨m.place, m.deed.component, m.deed.callback?⟩

/-- The elements of all places after the moment. A call may change that of its own component and
that of the parent. -/
def write (elements : List Nat → Option ε) (m : Moment ε) (place : List Nat) : Option ε :=
  match m.deed with
  | .created _ element => if place = m.place then some element else elements place
  | .called _ _ (.ok ends) =>
    (elements place).map fun element =>
      if place = m.place then ends.current
      else if place = m.place.dropLast then ends.parent.getD element
      else element
  | .called _ _ (.error _) => elements place

end Moment

/-- The element of every place after some moments: the one that was created for it, with all changes
that calls have made to it since. -/
def elementsAfter (log : List (Moment ε)) : List Nat → Option ε :=
  log.foldl Moment.write fun _ => none

theorem elementsAfter_concat (log : List (Moment ε)) (m : Moment ε) :
    elementsAfter (log ++ [m]) = m.write (elementsAfter log) :=
  List.foldl_concat ..

theorem Moment.write_of_not_isPrefix {m : Moment ε} {place : List Nat}
    (elsewhere : ¬ place <+: m.place) (elements : List Nat → Option ε) :
    m.write elements place = elements place := by
  obtain ⟨place', deed⟩ := m
  have own : place ≠ place' := by
    rintro rfl
    exact elsewhere List.prefix_rfl
  have parent : place ≠ place'.dropLast := by
    rintro rfl
    exact elsewhere (List.dropLast_prefix _)
  cases deed with
  | created c element => exact if_neg own
  | called callback path left =>
    cases left with
    | ok ends => simp [write, own, parent]
    | error fault => rfl

/-- What is done neither at a place nor below it leaves its element. -/
theorem elementsAfter_append_of_not_isPrefix {later : List (Moment ε)} {place : List Nat}
    (earlier : List (Moment ε)) (elsewhere : ∀ m ∈ later, ¬ place <+: m.place) :
    elementsAfter (earlier ++ later) place = elementsAfter earlier place := by
  induction later using List.reverseRecOn with
  | nil => rw [List.append_nil]
  | append_singleton later m ih =>
    rw [← List.append_assoc, elementsAfter_concat, m.write_of_not_isPrefix (elsewhere m (by simp)),
      ih fun m mem => elsewhere m (List.mem_append_left _ mem)]

/-- Only where an element was created there is one. -/
theorem exists_creation_of_elementsAfter {log : List (Moment ε)} {place : List Nat}
    (h : (elementsAfter log place).isSome) :
    ∃ c element, ⟨place, .created c element⟩ ∈ log := by
  induction log using List.reverseRecOn with
  | nil => contradiction
  | append_singleton log m ih =>
    have earlier (before : (elementsAfter log place).isSome) :
        ∃ c element, ⟨place, .created c element⟩ ∈ log ++ [m] := by
      obtain ⟨c, element, mem⟩ := ih before
      exact ⟨c, element, List.mem_append_left _ mem⟩
    rw [elementsAfter_concat] at h
    obtain ⟨place', deed⟩ := m
    cases deed with
    | created c element =>
      by_cases here : place = place'
      · subst here
        exact ⟨c, element, by simp⟩
      · simp only [Moment.write, if_neg here] at h
        exact earlier h
    | called callback path left =>
      cases left with
      | ok ends => exact earlier (by simpa [Moment.write] using h)
      | error fault => exact earlier h

theorem ne_concat_of_isPrefix {upper place : List Nat} {position : Nat}
    (isUpper : upper <+: place) : upper ≠ place ++ [position] := by
  rintro rfl
  have shorter := isUpper.length_le
  rw [List.length_append, List.length_singleton] at shorter
  omega

/-- The path leads to the component at the place, and its stations have the elements of the places
on the way. -/
inductive Stands (root : Component) (elements : List Nat → Option ε) : List Nat → Path ε → Prop
  | start {element : ε} (held : elements [] = some element) :
      Stands root elements [] (.start root element)
  | push {place : List Nat} {path : Path ε} {position : Nat} {child : Component} {element : ε}
      (above : Stands root elements place path)
      (isChild : path.current.component.children[position]? = some child)
      (held : elements (place ++ [position]) = some element) :
      Stands root elements (place ++ [position]) (path.push child element)

namespace Stands

variable {root : Component} {elements elements' : List Nat → Option ε} {place : List Nat}
  {path : Path ε}

theorem follow? (stands : Stands root elements place path) :
    root.follow? place = some path.current.component := by
  induction stands with
  | start held => rfl
  | @push place path position child element _ isChild _ ih =>
    rw [follow?_append, ih, Option.bind_some]
    exact follow?_singleton_iff.mpr isChild

theorem element (stands : Stands root elements place path) :
    elements place = some path.element := by
  cases stands with
  | start held => exact held
  | push above isChild held => exact held

theorem parent? (stands : Stands root elements place path) :
    path.parent? = if place = [] then none else elements place.dropLast := by
  cases stands with
  | start held => rfl
  | @push place path position child element above isChild held =>
    rw [if_neg (by simp), List.dropLast_concat, above.element]
    rfl

theorem depth (stands : Stands root elements place path) : path.depth = place.length := by
  induction stands with
  | start held => rfl
  | push above isChild held ih =>
    rw [List.length_append, ← ih]
    rfl

theorem isRoot_iff (stands : Stands root elements place path) :
    path.isRoot = true ↔ place = [] := by
  rw [← List.length_eq_zero_iff, ← stands.depth, Path.isRoot, Path.depth, List.isEmpty_iff,
    List.length_eq_zero_iff]

theorem root_eq (stands : Stands root elements place path) : elements [] = some path.root := by
  induction stands with
  | start held => exact held
  | @push place path position child element above isChild held ih =>
    obtain ⟨current, stations⟩ := path
    rw [ih, Path.root, Path.root, Path.push]
    cases stations with
    | nil => rfl
    | cons station stations =>
      rw [List.getLast?_cons_cons, List.getLast?_cons]
      rfl

/-- The components of the path are those at the places on the way, root first. -/
theorem components (stands : Stands root elements place path) :
    path.components.map some = place.inits.map root.follow? := by
  induction stands with
  | start held => rfl
  | @push place path position child element above isChild held ih =>
    have pushed : (path.push child element).components = path.components ++ [child] := by
      simp [Path.components, Path.push]
    have arrives := (Stands.push above isChild held).follow?
    rw [pushed, List.map_append, ih, List.inits_append, List.map_append]
    simp [arrives, Path.push]

/-- All components on the way have elements. -/
theorem isSome_of_isPrefix (stands : Stands root elements place path) {upper : List Nat}
    (isUpper : upper <+: place) : (elements upper).isSome := by
  induction stands with
  | start held =>
    rw [List.prefix_nil.mp isUpper, held]
    rfl
  | push above isChild held ih =>
    rcases List.prefix_concat_iff.mp isUpper with rfl | isUpper
    · rw [held]
      rfl
    · exact ih isUpper

theorem congr (stands : Stands root elements place path)
    (same : ∀ upper, upper <+: place → elements' upper = elements upper) :
    Stands root elements' place path := by
  induction stands with
  | start held => exact .start ((same [] List.prefix_rfl).trans held)
  | push above isChild held ih =>
    refine .push (ih fun upper isUpper => ?_) isChild ((same _ List.prefix_rfl).trans held)
    exact same upper (isUpper.trans (List.prefix_append _ _))

/-- Another element for the last component. -/
theorem replace {element : ε} (stands : Stands root elements place path)
    (same : ∀ upper, upper <+: place → upper ≠ place → elements' upper = elements upper)
    (held : elements' place = some element) :
    Stands root elements' place ⟨⟨path.current.component, element⟩, path.above⟩ := by
  cases stands with
  | start _ => exact .start held
  | push above isChild _ =>
    refine .push (above.congr fun upper isUpper => ?_) isChild held
    exact same upper (isUpper.trans (List.prefix_append _ _)) (ne_concat_of_isPrefix isUpper)

theorem pop {position : Nat} (stands : Stands root elements (place ++ [position]) path) :
    Stands root elements place path.pop := by
  generalize there : place ++ [position] = lower at stands
  cases stands with
  | start held => simp at there
  | push above isChild held =>
    obtain ⟨rfl, -⟩ := List.append_inj' there rfl
    exact above

theorem component_eq {path' : Path ε} (stands : Stands root elements place path)
    (stands' : Stands root elements' place path') :
    path'.current.component = path.current.component :=
  Option.some.inj (stands'.follow?.symm.trans stands.follow?)

/-- The path down to a child that has just been given its element. -/
theorem enter {log : List (Moment ε)} {position : Nat} {child : Component}
    (stands : Stands root (elementsAfter log) place path)
    (isChild : path.current.component.children[position]? = some child) (element : ε) :
    Stands root (elementsAfter (log ++ [⟨place ++ [position], .created child element⟩]))
      (place ++ [position]) (path.push child element) := by
  rw [elementsAfter_concat]
  refine .push (stands.congr fun upper isUpper => ?_) isChild (if_pos rfl)
  exact if_neg (ne_concat_of_isPrefix isUpper)

/-- After a call the path has the elements that the call has left. -/
theorem withEnds (stands : Stands root elements place path) (callback : Callback)
    (ends : Ends ε) :
    Stands root (Moment.write elements ⟨place, .called callback path (.ok ends)⟩) place
      (path.withEnds ends) := by
  cases stands with
  | start held =>
    refine .start ?_
    simp [Moment.write, held]
  | @push place path position child element above isChild held =>
    have own : Moment.write elements ⟨place ++ [position],
        .called callback (path.push child element) (.ok ends)⟩ (place ++ [position]) =
        some ends.current := by
      simp [Moment.write, held]
    obtain ⟨current, parent⟩ := ends
    cases parent with
    | none =>
      refine .push (above.congr fun upper isUpper => ?_) isChild own
      simp [Moment.write, ne_concat_of_isPrefix isUpper]
    | some parent =>
      have parents : Stands root (Moment.write elements ⟨place ++ [position],
          .called callback (path.push child element) (.ok ⟨current, some parent⟩)⟩) place
          ⟨⟨path.current.component, parent⟩, path.above⟩ := by
        refine above.replace (fun upper isUpper other => ?_) ?_
        · simp [Moment.write, ne_concat_of_isPrefix isUpper, other]
        · simp [Moment.write, above.element]
      exact parents.push isChild own

end Stands

end Metrology
