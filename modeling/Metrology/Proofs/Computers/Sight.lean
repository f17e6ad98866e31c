import Metrology.Proofs.Computers.Runs

/-! # What a computer can see

A run asks about its component and the children of it, and about the metrics that its computer
declares. Nothing else that a store holds can make a difference to it: from two stores that agree on
these slots it gets the same answers and adds the same measures to both. That a measure may be added
only where there is none yet gives nothing away, for the slots it may add to are among those it may
look at.
-/

namespace Metrology

open Metrology.Action Store

variable {catalog : Catalog}

/-- Two stores hold the same within a scope. -/
def Store.AgreeIn (scope : String → String → Prop) (first second : Store catalog) : Prop :=
  ∀ {component metric : String}, scope component metric →
    first.find? component metric = second.find? component metric

namespace Context

/-- The slots that a run may look at: those of its component and of the children for the declared
metrics. -/
def Sees (context : Context) (component metric : String) : Prop :=
  (component = context.component.key ∨
      ∃ child ∈ context.component.children, child.key = component) ∧
    (metric ∈ context.declaration.inputs ∨ metric ∈ context.declaration.outputs)

theorem sees_of_writes {context : Context} {component metric : String}
    (writes : context.Writes component metric) : context.Sees component metric :=
  ⟨.inl writes.1, .inr writes.2⟩

variable {context : Context} {first second : Store catalog}

theorem measure_congr (agree : AgreeIn context.Sees first second) (metric : String) :
    context.measure first metric = context.measure second metric := by
  unfold measure
  split
  · rename_i declared
    rw [Store.get, Store.get, agree ⟨.inl rfl, .inl declared⟩]
  · rfl

theorem children_congr (agree : AgreeIn context.Sees first second) (metric : String) :
    context.children first metric = context.children second metric := by
  unfold children
  split
  · rename_i declared
    have same : (context.component.children.filterMap fun child => first.find? child.key metric) =
        context.component.children.filterMap fun child => second.find? child.key metric :=
      List.filterMap_congr fun child mem => agree ⟨.inr ⟨child, mem, rfl⟩, declared⟩
    rw [ofChildren, ofChildren, same]
  · rfl

theorem addition_congr (agree : AgreeIn context.Sees first second) (metric : String)
    (value : Value) :
    context.addition first metric value = context.addition second metric value := by
  unfold addition
  split
  · rename_i declared
    rw [Store.get, Store.get, agree ⟨.inl rfl, .inr declared⟩]
  · rfl

theorem respects_add (context : Context) (metric : String) (value : Value) :
    Respects (AgreeIn context.Sees) (context.add metric value : Action (Store catalog) Unit) := by
  intro first second agree
  cases allowed : context.addition first metric value with
  | ok measure =>
    have allowed' : context.addition second metric value = .ok measure :=
      addition_congr agree metric value ▸ allowed
    obtain ⟨admits, run⟩ := add_apply_of_ok allowed
    obtain ⟨admits', run'⟩ := add_apply_of_ok allowed'
    rw [run, run']
    refine ⟨rfl, rfl, fun {component metric} seen => ?_⟩
    rw [find?_put, find?_put, agree seen]
  | error fault =>
    have refused : context.addition second metric value = .error fault :=
      addition_congr agree metric value ▸ allowed
    rw [add_apply_of_error allowed, add_apply_of_error refused]
    exact ⟨rfl, rfl, agree⟩

/-- Questions are answered alike from stores that agree where the context looks, and they agree
there afterwards. -/
theorem respects_answer (context : Context) (question : Question) :
    Respects (AgreeIn context.Sees)
      (context.answer question : Action (Store catalog) question.Answer) := by
  cases question with
  | measure metric =>
    exact fun _ _ agree => ⟨congrArg Except.ok (measure_congr agree metric), rfl, agree⟩
  | children metric =>
    exact fun _ _ agree => ⟨congrArg Except.ok (children_congr agree metric), rfl, agree⟩
  | add metric value =>
    intro first second agree
    obtain ⟨same, shown, after⟩ := respects_add context metric value first second agree
    exact ⟨congrArg Except.ok same, shown, after⟩
  | settings => exact Respects.pure _

theorem respects_consult {α : Type} (context : Context) (work : Consultation α) :
    Respects (AgreeIn context.Sees) (context.consult work : Action (Store catalog) α) := by
  induction work with
  | done value => exact Respects.pure value
  | ask question next ih =>
    refine Respects.bind (respects_answer context question) fun answer => ?_
    exact Respects.bind (Respects.note _) fun _ => ih answer
  | remark body next ih => exact Respects.bind (Respects.note _) fun _ => ih

/-- A run depends on nothing but the slots that it may look at. -/
theorem respects_run {α : Type} (context : Context) (work : Consult α) :
    Respects (AgreeIn context.Sees) (context.run work : Action (Store catalog) α) :=
  Respects.bind (respects_consult context work.run) fun result => Respects.ofExcept result

end Context

/-- What respects the slots it sees, and keeps what is held, adds the same to stores that agree on
these slots, and leaves all other measures as they are. -/
theorem gains_alike {α : Type} {sees writes : String → String → Prop}
    {x : Action (Store catalog) α} (keeps : Keeps (GrowsIn writes) x)
    (respects : Respects (AgreeIn sees) x)
    (own : ∀ {component metric}, writes component metric → sees component metric)
    {first second : Store catalog} (agree : AgreeIn sees first second)
    (component metric : String) :
    ((x first).state.find? component metric = first.find? component metric ∧
        (x second).state.find? component metric = second.find? component metric) ∨
      (writes component metric ∧
        first.find? component metric = none ∧ second.find? component metric = none ∧
        ∃ measure, (x first).state.find? component metric = some measure ∧
          (x second).state.find? component metric = some measure) := by
  obtain ⟨-, -, after⟩ := respects first second agree
  by_cases written : writes component metric
  · have before : first.find? component metric = second.find? component metric :=
      agree (own written)
    have same : (x first).state.find? component metric = (x second).state.find? component metric :=
      after (own written)
    cases held : first.find? component metric with
    | some measure =>
      have held' : second.find? component metric = some measure := before.symm.trans held
      exact .inl ⟨(keeps first).kept held, held' ▸ (keeps second).kept held'⟩
    | none =>
      have free : second.find? component metric = none := before.symm.trans held
      cases gained : (x first).state.find? component metric with
      | none => exact .inl ⟨rfl, (same.symm.trans gained).trans free.symm⟩
      | some measure => exact .inr ⟨written, rfl, free, measure, rfl, same.symm.trans gained⟩
  · exact .inl ⟨(keeps first).outside written, (keeps second).outside written⟩

/-- A computer can not see beyond its declaration. Whatever it asks on a component, one question
depending on the answers before it, and whatever settings it is shown: on two stores that agree on
the component and its children for the declared metrics the run gives the same result or fails with
the same fault, the journal holds the same questions with the same answers, and every slot either is
left as it was in both stores, or it was empty in both, is one the computer may write and holds the
same measure in both. -/
theorem Context.run_sees_declared_only {α : Type} (context : Context) (work : Consult α)
    {first second : Store catalog} (agree : AgreeIn context.Sees first second) :
    let outcome := context.run work first
    let outcome' := context.run work second
    outcome.result = outcome'.result ∧ outcome.journal = outcome'.journal ∧
      ∀ component metric,
        (outcome.state.find? component metric = first.find? component metric ∧
          outcome'.state.find? component metric = second.find? component metric) ∨
        (context.Writes component metric ∧
          first.find? component metric = none ∧ second.find? component metric = none ∧
          ∃ measure, outcome.state.find? component metric = some measure ∧
            outcome'.state.find? component metric = some measure) := by
  intro outcome outcome'
  obtain ⟨sameResult, sameJournal, -⟩ := respects_run context work first second agree
  exact ⟨sameResult, sameJournal,
    gains_alike (keeps_run context work) (respects_run context work) sees_of_writes agree⟩

namespace SightWitnesses

def metrics : Catalog :=
  ⟨[⟨"ncloc", .int, "Lines of code"⟩, ⟨"size", .int, "Size"⟩, ⟨"hidden", .int, "Hidden"⟩],
    by decide⟩

def file : Component := .node ⟨"F", none, "F", .file ⟨2, none, none⟩ {}⟩ []

def project : Component := .node ⟨"P", none, "P", .project ⟨1, none, none⟩⟩ [file]

def context : Context where
  computer := 0
  component := project
  declaration := ⟨Std.ExtTreeSet.ofList ["ncloc"], Std.ExtTreeSet.ofList ["size"]⟩
  settings := {}
  traced := false

/-- The size is that of the first child. -/
def sizing : Consult Unit := do
  match ← Consult.children "ncloc" with
  | [] => pure ()
  | measure :: _ => Consult.add "size" measure.value

def plain : Store metrics :=
  (∅ : Store metrics).put "F" "ncloc" ⟨"ncloc", .int 7⟩ ⟨_, rfl, rfl, by decide⟩

/-- There is also a measure of the file that the computer has not declared. -/
def peculiar : Store metrics :=
  plain.put "F" "hidden" ⟨"hidden", .int 3⟩ ⟨_, rfl, rfl, by decide⟩

theorem plain_agrees : AgreeIn context.Sees plain peculiar := by
  intro component metric seen
  have notHidden : metric ≠ "hidden" := by
    rintro rfl
    exact absurd seen.2 (by decide +kernel)
  exact ((find?_put plain "F" "hidden" _ _ component metric).trans
    (if_neg fun same => notHidden same.2)).symm

theorem run_sees_declared_only_project :
    AgreeIn context.Sees plain peculiar ∧
      plain.find? "F" "hidden" = none ∧ (peculiar.find? "F" "hidden").isSome ∧
      let outcome := context.run sizing plain
      let outcome' := context.run sizing peculiar
      outcome.result = outcome'.result ∧ outcome.journal = outcome'.journal ∧
        ∃ measure, outcome.state.find? "P" "size" = some measure ∧
          outcome'.state.find? "P" "size" = some measure := by
  obtain ⟨sameResult, sameJournal, slots⟩ :=
    Context.run_sees_declared_only context sizing plain_agrees
  refine ⟨plain_agrees, ?_, ?_, sameResult, sameJournal, ?_⟩
  · exact Option.isNone_iff_eq_none.mp (by decide +kernel)
  · decide +kernel
  · rcases slots "P" "size" with ⟨left, -⟩ | ⟨-, -, -, gained⟩
    · have sized : ((context.run sizing plain).state.find? "P" "size").isSome = true := by
        decide +kernel
      have unsized : (plain.find? "P" "size").isSome = false := by decide +kernel
      rw [left, unsized] at sized
      contradiction
    · exact gained

end SightWitnesses

end Metrology
