import Mathlib.Data.List.Induction
import Mathlib.Data.String.Basic
import Mathlib.Order.Bounds.Basic
import Metrology.Computer.Registry
import Metrology.Proofs.Runs

/-! # Registering computers

Computers are offered to a registry one after the other, and each is taken in or refused as those
that were taken in before allow. The reason of a refusal names the first key that is at fault. What
comes of any number of offers is a registry in which no metric has two writers and every writer
stands before the readers of what it writes.
-/

namespace Metrology

open Metrology.Action

variable {catalog : Catalog}

namespace Declaration

/-! ## Joining and being refused -/

/-- A computer of this declaration can join the others: what it declares is in the catalog, and what
it writes none of the others writes or reads. -/
structure Joins (catalog : Catalog) (others : List Declaration) (declaration : Declaration) :
    Prop where
  inputs_known : ∀ key ∈ declaration.inputs, catalog.contains key = true
  outputs_known : ∀ key ∈ declaration.outputs, catalog.contains key = true
  untaken : ∀ key ∈ declaration.outputs, ∀ other ∈ others, key ∉ other.outputs
  unread : ∀ key ∈ declaration.outputs, ∀ other ∈ others, key ∉ other.inputs

/-- The smallest of the keys of which `p` holds. -/
def IsFirst (keys : Std.ExtTreeSet String) (p : String → Prop) (key : String) : Prop :=
  IsLeast {k | k ∈ keys ∧ p k} key

/-- The fault with which a computer of this declaration is refused. Keys that the catalog does not
know come first, those of inputs before those of outputs, then outputs that another computer
writes, then outputs that another computer reads. -/
inductive Refused (catalog : Catalog) (others : List Declaration) (declaration : Declaration) :
    Fault → Prop
  | unknownInput {key : String}
      (first : IsFirst declaration.inputs (fun k => catalog.contains k = false) key) :
      Refused catalog others declaration (.unknownMetric key)
  | unknownOutput {key : String}
      (inputsKnown : ∀ k ∈ declaration.inputs, catalog.contains k = true)
      (first : IsFirst declaration.outputs (fun k => catalog.contains k = false) key) :
      Refused catalog others declaration (.unknownMetric key)
  | outputTaken {key : String}
      (inputsKnown : ∀ k ∈ declaration.inputs, catalog.contains k = true)
      (outputsKnown : ∀ k ∈ declaration.outputs, catalog.contains k = true)
      (first : IsFirst declaration.outputs (fun k => ∃ other ∈ others, k ∈ other.outputs) key) :
      Refused catalog others declaration (.invalidComputer (.outputTaken key))
  | outputRead {key : String}
      (inputsKnown : ∀ k ∈ declaration.inputs, catalog.contains k = true)
      (outputsKnown : ∀ k ∈ declaration.outputs, catalog.contains k = true)
      (untaken : ∀ k ∈ declaration.outputs, ∀ other ∈ others, k ∉ other.outputs)
      (first : IsFirst declaration.outputs (fun k => ∃ other ∈ others, k ∈ other.inputs) key) :
      Refused catalog others declaration (.invalidComputer (.outputRead key))

section Keys

variable {keys : Std.ExtTreeSet String} {test : String → Bool} {p : String → Prop}

/-- A search through the keys in their order finds the smallest. -/
theorem find?_eq_some_iff_isFirst (decides : ∀ k, test k = true ↔ p k) {key : String} :
    keys.toList.find? test = some key ↔ IsFirst keys p key := by
  have firstOf : ∀ {k : String}, keys.toList.find? test = some k → IsFirst keys p k := by
    intro k found
    obtain ⟨holds, before, after, split, none⟩ := List.find?_eq_some_iff_append.mp found
    have sorted := keys.ordered_toList
    rw [split] at sorted
    constructor
    · exact ⟨Std.ExtTreeSet.mem_toList.mp (List.mem_of_find?_eq_some found), (decides k).mp holds⟩
    · rintro other ⟨mem, holds'⟩
      have listed : other ∈ before ++ k :: after := split ▸ Std.ExtTreeSet.mem_toList.mpr mem
      rcases List.mem_append.mp listed with sooner | later
      · have fails := none other sooner
        rw [(decides other).mpr holds'] at fails
        contradiction
      · rcases List.mem_cons.mp later with rfl | later
        · exact le_refl _
        · have tail := (List.pairwise_append.mp sorted).2.1
          exact (compare_lt_iff_lt.mp ((List.pairwise_cons.mp tail).1 other later)).le
  constructor
  · exact firstOf
  · intro first
    cases found : keys.toList.find? test with
    | some other => rw [IsLeast.unique (firstOf found) first]
    | none =>
      obtain ⟨mem, holds⟩ := first.1
      have fails := List.find?_eq_none.mp found key (Std.ExtTreeSet.mem_toList.mpr mem)
      exact absurd ((decides key).mpr holds) fails

theorem find?_eq_none_iff_forall (decides : ∀ k, test k = true ↔ p k) :
    keys.toList.find? test = none ↔ ∀ k ∈ keys, ¬ p k := by
  rw [List.find?_eq_none]
  simp only [Std.ExtTreeSet.mem_toList, decides]

end Keys

variable {others : List Declaration} {declaration : Declaration}

/-- The objections are tried one after the other, each on the keys in their order. -/
theorem objection?_eq_or :
    declaration.objection? catalog others =
      ((declaration.inputs.toList.find? fun key => ! catalog.contains key).map
          Fault.unknownMetric).or
        (((declaration.outputs.toList.find? fun key => ! catalog.contains key).map
            Fault.unknownMetric).or
          (((declaration.outputs.toList.find? fun key =>
              others.any fun other => other.outputs.contains key).map
                fun key => .invalidComputer (.outputTaken key)).or
            ((declaration.outputs.toList.find? fun key =>
              others.any fun other => other.inputs.contains key).map
                fun key => .invalidComputer (.outputRead key)))) := by
  simp only [objection?, List.find?_append]
  cases declaration.inputs.toList.find? fun key => ! catalog.contains key with
  | some key => rfl
  | none =>
    cases declaration.outputs.toList.find? fun key => ! catalog.contains key with
    | some key => rfl
    | none =>
      cases declaration.outputs.toList.find? fun key =>
          others.any fun other => other.outputs.contains key with
      | some key => rfl
      | none =>
        cases declaration.outputs.toList.find? fun key =>
            others.any fun other => other.inputs.contains key <;> rfl

theorem objection?_eq_some_iff {fault : Fault} :
    declaration.objection? catalog others = some fault ↔
      declaration.Refused catalog others fault := by
  have unknown : ∀ key, (! catalog.contains key) = true ↔ catalog.contains key = false := by simp
  have taken : ∀ key, (others.any fun other => other.outputs.contains key) = true ↔
      ∃ other ∈ others, key ∈ other.outputs := by simp
  have read : ∀ key, (others.any fun other => other.inputs.contains key) = true ↔
      ∃ other ∈ others, key ∈ other.inputs := by simp
  rw [objection?_eq_or]
  simp only [Option.or_eq_some_iff, Option.map_eq_some_iff, Option.map_eq_none_iff,
    find?_eq_some_iff_isFirst unknown, find?_eq_none_iff_forall unknown,
    find?_eq_some_iff_isFirst taken, find?_eq_none_iff_forall taken,
    find?_eq_some_iff_isFirst read, Bool.not_eq_false]
  constructor
  · rintro (⟨key, first, rfl⟩ | ⟨inputsKnown, ⟨key, first, rfl⟩ | ⟨outputsKnown,
      ⟨key, first, rfl⟩ | ⟨untaken, key, first, rfl⟩⟩⟩)
    · exact .unknownInput first
    · exact .unknownOutput inputsKnown first
    · exact .outputTaken inputsKnown outputsKnown first
    · exact .outputRead inputsKnown outputsKnown (by simpa using untaken) first
  · intro refused
    cases refused with
    | unknownInput first => exact .inl ⟨_, first, rfl⟩
    | unknownOutput inputsKnown first => exact .inr ⟨inputsKnown, .inl ⟨_, first, rfl⟩⟩
    | outputTaken inputsKnown outputsKnown first =>
      exact .inr ⟨inputsKnown, .inr ⟨outputsKnown, .inl ⟨_, first, rfl⟩⟩⟩
    | outputRead inputsKnown outputsKnown untaken first =>
      exact .inr ⟨inputsKnown, .inr ⟨outputsKnown, .inr ⟨by simpa using untaken, _, first, rfl⟩⟩⟩

theorem joins_iff_objection?_eq_none :
    declaration.Joins catalog others ↔ declaration.objection? catalog others = none := by
  rw [objection?_eq_none_iff]
  constructor
  · intro joins
    refine ⟨?_, fun other mem key writes => ?_⟩
    · rintro key (reads | writes)
      · exact joins.inputs_known key reads
      · exact joins.outputs_known key writes
    · exact ⟨joins.untaken key writes other mem, joins.unread key writes other mem⟩
  · rintro ⟨known, follows⟩
    constructor
    · exact fun key reads => known key (.inl reads)
    · exact fun key writes => known key (.inr writes)
    · exact fun key writes other mem => (follows other mem key writes).1
    · exact fun key writes other mem => (follows other mem key writes).2

end Declaration

namespace Registry

/-! ## One offer -/

/-- The declarations of the computers, in the order of their registration. -/
def declarations (computers : List Computer) : List Declaration :=
  computers.map Computer.declaration

theorem computers_of_register {registry after : Registry catalog} {computer : Computer}
    (h : registry.register computer = .ok after) :
    after.computers = registry.computers ++ [computer] := by
  unfold register at h
  split at h
  · contradiction
  · rw [← Except.ok.inj h]

theorem exists_register_iff {registry : Registry catalog} {computer : Computer} :
    (∃ after, registry.register computer = .ok after) ↔
      computer.declaration.Joins catalog (declarations registry.computers) := by
  rw [Declaration.joins_iff_objection?_eq_none, declarations]
  unfold register
  split
  · rename_i fault objects
    simp [objects]
  · rename_i noObjection
    exact ⟨fun _ => noObjection, fun _ => ⟨_, rfl⟩⟩

theorem register_eq_error_iff {registry : Registry catalog} {computer : Computer} {fault : Fault} :
    registry.register computer = .error fault ↔
      computer.declaration.Refused catalog (declarations registry.computers) fault := by
  rw [← Declaration.objection?_eq_some_iff, declarations]
  unfold register
  split
  · rename_i fault' objects
    simp [objects]
  · rename_i noObjection
    simp [noObjection]

/-- Registers a computer in the present registry, which stays as it was if this is refused. -/
def offer (computer : Computer) : Action (Registry catalog) Unit :=
  Action.change fun registry => registry.register computer

theorem offer_of_register_ok {registry after : Registry catalog} {computer : Computer}
    (h : registry.register computer = .ok after) :
    offer computer registry = ⟨.ok (), after, []⟩ := by
  simp only [offer, Action.change, h]

theorem offer_of_register_error {registry : Registry catalog} {computer : Computer} {fault : Fault}
    (h : registry.register computer = .error fault) :
    offer computer registry = ⟨.error fault, registry, []⟩ := by
  simp only [offer, Action.change, h]

/-- An offer is taken, and the computer joins at the end, or it is refused and changes nothing. -/
theorem offer_cases (computer : Computer) (registry : Registry catalog) :
    (computer.declaration.Joins catalog (declarations registry.computers) ∧
        (offer computer registry).result = .ok () ∧
        (offer computer registry).state.computers = registry.computers ++ [computer]) ∨
      ∃ fault, computer.declaration.Refused catalog (declarations registry.computers) fault ∧
        ¬ computer.declaration.Joins catalog (declarations registry.computers) ∧
        (offer computer registry).result = .error fault ∧
        (offer computer registry).state = registry := by
  cases registered : registry.register computer with
  | ok after =>
    left
    rw [offer_of_register_ok registered]
    exact ⟨exists_register_iff.mp ⟨after, registered⟩, rfl, computers_of_register registered⟩
  | error fault =>
    right
    rw [offer_of_register_error registered]
    refine ⟨fault, register_eq_error_iff.mp registered, fun joins => ?_, rfl, rfl⟩
    obtain ⟨after, joined⟩ := exists_register_iff.mpr joins
    rw [registered] at joined
    contradiction

theorem result_offer_eq_ok_iff {computer : Computer} {registry : Registry catalog} :
    (offer computer registry).result = .ok () ↔
      computer.declaration.Joins catalog (declarations registry.computers) := by
  rcases offer_cases computer registry with ⟨joins, taken, -⟩ | ⟨fault, -, objects, refused, -⟩
  · exact ⟨fun _ => joins, fun _ => taken⟩
  · rw [refused]
    exact ⟨fun taken => by contradiction, fun joins => absurd joins objects⟩

theorem result_offer_eq_error_iff {computer : Computer} {registry : Registry catalog}
    {fault : Fault} :
    (offer computer registry).result = .error fault ↔
      computer.declaration.Refused catalog (declarations registry.computers) fault := by
  rw [← register_eq_error_iff]
  cases registered : registry.register computer with
  | ok after => simp [offer_of_register_ok registered]
  | error fault' => simp [offer_of_register_error registered]

/-! ## Any number of offers -/

/-- The registry of computers that are registered one after the other, if all are accepted. -/
def registerAll (computers : List Computer) : Except Fault (Registry catalog) :=
  computers.foldlM register {}

theorem computers_of_foldlM_register {computers : List Computer} {registry after : Registry catalog}
    (h : computers.foldlM register registry = .ok after) :
    after.computers = registry.computers ++ computers := by
  induction computers generalizing registry with
  | nil =>
    rw [← Except.ok.inj h, List.append_nil]
  | cons computer computers ih =>
    rw [List.foldlM_cons] at h
    cases accepted : registry.register computer with
    | error fault =>
      rw [accepted] at h
      contradiction
    | ok next =>
      rw [accepted] at h
      rw [ih h, computers_of_register accepted, List.append_assoc, List.singleton_append]

/-- The registry that comes of offering computers to an empty one, one after the other. -/
def ofOffers (offers : List Computer) : Registry catalog :=
  offers.foldl (fun registry computer => (offer computer registry).state) {}

theorem ofOffers_concat (offers : List Computer) (computer : Computer) :
    (ofOffers (offers ++ [computer]) : Registry catalog) =
      (offer computer (ofOffers offers)).state :=
  List.foldl_concat ..

/-- If all computers are accepted, it is no matter whether a refusal would end the registration. -/
theorem foldl_offer_of_foldlM_register {computers : List Computer}
    {registry after : Registry catalog} (h : computers.foldlM register registry = .ok after) :
    computers.foldl (fun registry computer => (offer computer registry).state) registry = after := by
  induction computers generalizing registry with
  | nil => exact Except.ok.inj h
  | cons computer computers ih =>
    rw [List.foldlM_cons] at h
    cases accepted : registry.register computer with
    | error fault =>
      rw [accepted] at h
      contradiction
    | ok next =>
      rw [accepted] at h
      rw [List.foldl_cons, offer_of_register_ok accepted]
      exact ih h

/-- Which of the computers that are offered are taken in, in order: those that can join the ones
that were taken in before. -/
inductive TakenIn (catalog : Catalog) : List Computer → List Computer → Prop
  | nil : TakenIn catalog [] []
  | joined {offers taken : List Computer} {computer : Computer}
      (before : TakenIn catalog offers taken)
      (joins : computer.declaration.Joins catalog (declarations taken)) :
      TakenIn catalog (offers ++ [computer]) (taken ++ [computer])
  | refused {offers taken : List Computer} {computer : Computer}
      (before : TakenIn catalog offers taken)
      (objects : ¬ computer.declaration.Joins catalog (declarations taken)) :
      TakenIn catalog (offers ++ [computer]) taken

theorem takenIn_iff {offers taken : List Computer} :
    TakenIn catalog offers taken ↔ (ofOffers offers : Registry catalog).computers = taken := by
  constructor
  · intro takenIn
    induction takenIn with
    | nil => rfl
    | @joined offers taken computer _ joins ih =>
      subst ih
      rw [ofOffers_concat]
      rcases offer_cases computer (ofOffers offers : Registry catalog) with
        ⟨-, -, joined⟩ | ⟨-, -, objects, -⟩
      · exact joined
      · exact absurd joins objects
    | @refused offers taken computer _ objects ih =>
      subst ih
      rw [ofOffers_concat]
      rcases offer_cases computer (ofOffers offers : Registry catalog) with
        ⟨joins, -⟩ | ⟨-, -, -, -, unchanged⟩
      · exact absurd joins objects
      · rw [unchanged]
  · rintro rfl
    induction offers using List.reverseRecOn with
    | nil => exact .nil
    | append_singleton offers computer ih =>
      rw [ofOffers_concat]
      rcases offer_cases computer (ofOffers offers : Registry catalog) with
        ⟨joins, -, joined⟩ | ⟨-, -, objects, -, unchanged⟩
      · rw [joined]
        exact .joined ih joins
      · rw [unchanged]
        exact .refused ih objects

/-! ## The order of a registry -/

section Order

variable {registry : Registry catalog} {place place' : Nat} {computer computer' : Computer}

theorem follows_of_lt (here : registry.computers[place]? = some computer)
    (there : registry.computers[place']? = some computer') (sooner : place < place') :
    computer'.declaration.Follows computer.declaration := by
  obtain ⟨inside, rfl⟩ := List.getElem?_eq_some_iff.mp here
  obtain ⟨inside', rfl⟩ := List.getElem?_eq_some_iff.mp there
  exact List.pairwise_iff_getElem.mp registry.ordered place place' inside inside' sooner

/-- A metric is written by one computer only. -/
theorem place_eq_of_writes (here : registry.computers[place]? = some computer)
    (there : registry.computers[place']? = some computer') {metric : String}
    (writes : metric ∈ computer.declaration.outputs)
    (writes' : metric ∈ computer'.declaration.outputs) : place = place' := by
  rcases Nat.lt_trichotomy place place' with sooner | same | later
  · exact absurd writes (follows_of_lt here there sooner metric writes').1
  · exact same
  · exact absurd writes' (follows_of_lt there here later metric writes).1

/-- What a computer reads is written by no computer after it. -/
theorem place_le_of_reads (here : registry.computers[place]? = some computer)
    (there : registry.computers[place']? = some computer') {metric : String}
    (reads : metric ∈ computer.declaration.inputs)
    (writes : metric ∈ computer'.declaration.outputs) : place' ≤ place := by
  by_contra later
  exact (follows_of_lt here there (Nat.lt_of_not_le later) metric writes).2 reads

end Order

/-- Whatever computers were offered before, an offer is taken exactly if the computer declares
metrics of the catalog and writes none that a computer taken in before writes or reads; it is then
registered after all others. Otherwise it is refused with the first fault and changes nothing. So
the registry holds those that were taken in, in order; no metric is written by two of them, and
none is written after it is read. -/
theorem ofOffers_decides_and_orders (catalog : Catalog) (offers : List Computer) :
    let registry : Registry catalog := ofOffers offers
    (∀ computer : Computer,
      let declaration := computer.declaration
      let others := declarations registry.computers
      let outcome := offer computer registry
      (outcome.result = .ok () ↔ declaration.Joins catalog others) ∧
      (outcome.result = .ok () → outcome.state.computers = registry.computers ++ [computer]) ∧
      (∀ fault, outcome.result = .error fault ↔ declaration.Refused catalog others fault) ∧
      (outcome.result ≠ .ok () → outcome.state = registry)) ∧
    (∀ taken, TakenIn catalog offers taken ↔ registry.computers = taken) ∧
    ∀ (place place' : Nat) (computer computer' : Computer) (metric : String),
      registry.computers[place]? = some computer → registry.computers[place']? = some computer' →
        (metric ∈ computer.declaration.outputs → metric ∈ computer'.declaration.outputs →
          place = place') ∧
        (metric ∈ computer.declaration.inputs → metric ∈ computer'.declaration.outputs →
          place' ≤ place) := by
  intro registry
  refine ⟨fun computer => ?_, fun taken => takenIn_iff, ?_⟩
  · refine ⟨result_offer_eq_ok_iff, ?_, fun fault => result_offer_eq_error_iff, ?_⟩
    · intro ok
      rcases offer_cases computer registry with ⟨-, -, joined⟩ | ⟨fault, -, -, refused, -⟩
      · exact joined
      · rw [refused] at ok
        contradiction
    · intro failed
      rcases offer_cases computer registry with ⟨-, taken, -⟩ | ⟨fault, -, -, -, unchanged⟩
      · exact absurd taken failed
      · exact unchanged
  · intro place place' computer computer' metric here there
    exact ⟨place_eq_of_writes here there, place_le_of_reads here there⟩

end Registry

namespace RegistrationWitnesses

def metrics : Catalog :=
  ⟨[⟨"ncloc", .int, "Lines of code"⟩, ⟨"share", .int, "Share"⟩, ⟨"size", .int, "Size"⟩],
    by decide⟩

/-- A computer of which only the declaration matters. -/
def idle (inputs outputs : List String) : Computer where
  declaration := ⟨Std.ExtTreeSet.ofList inputs, Std.ExtTreeSet.ofList outputs⟩
  compute _ := pure ()

def lines : Computer := idle [] ["ncloc"]

def sizing : Computer := idle ["ncloc", "share"] ["size"]

/-- Writes what `sizing` reads. -/
def sharing : Computer := idle [] ["share"]

def offers : List Computer := [lines, lines, sizing]

theorem offers_taken : Registry.TakenIn metrics offers [lines, sizing] := by
  have first : lines.declaration.Joins metrics (Registry.declarations []) :=
    Declaration.joins_iff_objection?_eq_none.mpr (by decide +kernel)
  have again : ¬ lines.declaration.Joins metrics (Registry.declarations [lines]) := fun joins =>
    absurd (Declaration.joins_iff_objection?_eq_none.mp joins) (by decide +kernel)
  have last : sizing.declaration.Joins metrics (Registry.declarations [lines]) :=
    Declaration.joins_iff_objection?_eq_none.mpr (by decide +kernel)
  exact .joined (.refused (.joined .nil first) again) last

/-- The second computer that writes `ncloc` is refused because of the first, the one that writes
`share` because it comes too late. -/
theorem ofOffers_decides_and_orders_three :
    let registry : Registry metrics := Registry.ofOffers offers
    registry.computers = [lines, sizing] ∧
      (Registry.offer lines registry).result =
        .error (.invalidComputer (.outputTaken "ncloc")) ∧
      (Registry.offer sharing registry).result =
        .error (.invalidComputer (.outputRead "share")) ∧
      (Registry.offer sharing registry).state = registry := by
  intro registry
  obtain ⟨decides, taken, -⟩ := Registry.ofOffers_decides_and_orders metrics offers
  have computers : registry.computers = [lines, sizing] := (taken _).mp offers_taken
  have takenAlready : lines.declaration.Refused metrics (Registry.declarations registry.computers)
      (.invalidComputer (.outputTaken "ncloc")) := by
    rw [computers]
    exact Declaration.objection?_eq_some_iff.mp (by decide +kernel)
  have readAlready : sharing.declaration.Refused metrics (Registry.declarations registry.computers)
      (.invalidComputer (.outputRead "share")) := by
    rw [computers]
    exact Declaration.objection?_eq_some_iff.mp (by decide +kernel)
  obtain ⟨-, -, refusals, -⟩ := decides lines
  obtain ⟨-, -, refusals', unchanged⟩ := decides sharing
  have failed := (refusals' _).mpr readAlready
  refine ⟨computers, (refusals _).mpr takenAlready, failed, unchanged fun ok => ?_⟩
  rw [failed] at ok
  contradiction

end RegistrationWitnesses

end Metrology
