import Mathlib.Data.List.Infix
import Metrology.Computer.Crawl
import Metrology.Proofs.CrawlOrder
import Metrology.Proofs.Growth
import Metrology.Proofs.Runs

/-! # Runs of measure computers

A run on a component adds measures of the declared outputs to this component and does nothing else
to the store. Whatever is asked in a crawl is answered from a store that lies between the first and
the last one, and what is written before and after is known by the order of the crawl and of the
registration.
-/

namespace Metrology

open Metrology.Action Store

variable {catalog : Catalog}

/-- The slots that runs of these computers on these components may write. -/
def Written (components : List Component) (computers : List Computer)
    (component metric : String) : Prop :=
  (∃ c ∈ components, c.key = component) ∧
    ∃ computer ∈ computers, metric ∈ computer.declaration.outputs

theorem Written.mono {components components' : List Component}
    {computers computers' : List Computer} (more : components ⊆ components')
    (more' : computers ⊆ computers') {component metric : String}
    (h : Written components computers component metric) :
    Written components' computers' component metric := by
  obtain ⟨⟨c, mem, same⟩, computer, mem', writes⟩ := h
  exact ⟨⟨c, more mem, same⟩, computer, more' mem', writes⟩

namespace Context

/-- The slots that a run may write: those of its component for the declared outputs. -/
def Writes (context : Context) (component metric : String) : Prop :=
  component = context.component.key ∧ metric ∈ context.declaration.outputs

/-- What a run may add is a fitting measure of a declared output that the component has not yet. -/
theorem of_addition_eq_ok {context : Context} {store : Store catalog} {metric : String}
    {value : Value} {measure : Measure} (h : context.addition store metric value = .ok measure) :
    metric ∈ context.declaration.outputs ∧ catalog.Admits metric measure ∧
      store.find? context.component.key metric = none := by
  unfold addition at h
  split at h
  · rename_i declared
    cases known : catalog.find? metric with
    | none =>
      rw [Store.get, known] at h
      contradiction
    | some found =>
      rw [Store.get_of_find? known] at h
      cases held : store.find? context.component.key metric with
      | some measure' =>
        rw [held] at h
        contradiction
      | none =>
        rw [held, Catalog.get_of_find? known] at h
        replace h : Measure.of found value = .ok measure := h
        unfold Measure.of at h
        split at h
        · rename_i fits
          obtain rfl := Except.ok.inj h
          exact ⟨declared, ⟨found, known, Catalog.key_of_find? known, fits⟩, rfl⟩
        · contradiction
  · contradiction

theorem add_apply_of_error {context : Context} {store : Store catalog} {metric : String}
    {value : Value} {fault : Fault} (h : context.addition store metric value = .error fault) :
    context.add metric value store = ⟨.error fault, store, []⟩ := by
  have refused : (ofExcept (context.addition store metric value) store).result = .error fault := by
    rw [h]
    rfl
  rw [add, get_bind_apply, bind_apply_error _ refused, state_ofExcept, journal_ofExcept]

/-- What may be added is added, and shown in the log if asked for. -/
theorem add_apply_of_ok {context : Context} {store : Store catalog} {metric : String}
    {value : Value} {measure : Measure} (h : context.addition store metric value = .ok measure) :
    ∃ admits, context.add metric value store =
      ⟨.ok (), store.put context.component.key metric measure admits,
        if context.traced then [.event (.measureAdded context.component.key metric measure.value)]
        else []⟩ := by
  obtain ⟨-, admits, free⟩ := of_addition_eq_ok h
  have stored := Store.add_eq_ok_iff.mpr ⟨admits, free, rfl⟩
  refine ⟨admits, ?_⟩
  cases traced : context.traced <;>
    simp [add, Bind.bind, Action.bind, Action.get, Action.ofExcept, h, emitIf, emit, note, change,
      stored, traced, Pure.pure, Action.pure]

theorem keeps_add (context : Context) (metric : String) (value : Value) :
    Keeps (GrowsIn context.Writes) (context.add metric value : Action (Store catalog) Unit) := by
  unfold add
  refine Keeps.bind Keeps.get fun store => ?_
  refine Keeps.bind_ofExcept fun measure allowed => ?_
  refine Keeps.bind (Keeps.emitIf _ _) fun _ => ?_
  refine Keeps.change fun before after h => ?_
  exact GrowsIn.of_add h ⟨rfl, (of_addition_eq_ok allowed).1⟩

theorem keeps_answer (context : Context) (question : Question) :
    Keeps (GrowsIn context.Writes)
      (context.answer question : Action (Store catalog) question.Answer) := by
  cases question with
  | measure metric => exact fun s => refl s
  | children metric => exact fun s => refl s
  | add metric value => exact fun s => keeps_add context metric value s
  | settings => exact Keeps.pure _

theorem keeps_consult {α : Type} (context : Context) (work : Consultation α) :
    Keeps (GrowsIn context.Writes) (context.consult work : Action (Store catalog) α) := by
  induction work with
  | done value => exact Keeps.pure value
  | ask question next ih =>
    refine Keeps.bind (keeps_answer context question) fun answer => ?_
    exact Keeps.bind (Keeps.note _) fun _ => ih answer
  | remark body next ih => exact Keeps.bind (Keeps.note _) fun _ => ih

theorem keeps_run {α : Type} (context : Context) (work : Consult α) :
    Keeps (GrowsIn context.Writes) (context.run work : Action (Store catalog) α) :=
  Keeps.bind (keeps_consult context work.run) fun result => Keeps.ofExcept result

/-- Answering shows events at most. -/
theorem exchange_not_mem_answer {context : Context} {question : Question} {store : Store catalog}
    {exchange : Exchange} : .exchange exchange ∉ (context.answer question store).journal := by
  intro mem
  cases question with
  | measure metric => contradiction
  | children metric => contradiction
  | settings => contradiction
  | add metric value =>
    replace mem : .exchange exchange ∈ (context.add metric value store).journal := mem
    unfold add at mem
    rcases mem_journal_bind mem with mem | ⟨_, -, mem⟩
    · contradiction
    rcases mem_journal_bind mem with mem | ⟨_, -, mem⟩
    · rw [journal_ofExcept] at mem
      contradiction
    rcases mem_journal_bind mem with mem | ⟨_, -, mem⟩
    · exact exchange_not_mem_emitIf mem
    · rw [journal_change] at mem
      contradiction

/-- An answer was given on some store `asked` between the first and the last one; whatever else the
run adds lies within the slots it may write. -/
theorem asked_of_mem_consult {α : Type} {context : Context} {work : Consultation α}
    {store : Store catalog} {exchange : Exchange}
    (h : .exchange exchange ∈ (context.consult work store).journal) :
    exchange.computer = context.computer ∧ exchange.component = context.component.key ∧
      ∃ asked : Store catalog, GrowsIn context.Writes store asked ∧
        (context.answer exchange.question asked).result = .ok exchange.answer ∧
        GrowsIn context.Writes (context.answer exchange.question asked).state
          (context.consult work store).state := by
  induction work generalizing store with
  | done value => contradiction
  | ask question next ih =>
    unfold consult at h ⊢
    rcases mem_journal_bind h with mem | ⟨answer, answered, mem⟩
    · exact absurd mem exchange_not_mem_answer
    · rw [bind_apply_ok _ answered]
      rcases mem_journal_bind mem with mem | ⟨_, -, mem⟩
      · have this : exchange = ⟨context.computer, context.component.key, question, answer⟩ := by
          simpa [note] using mem
        subst this
        refine ⟨rfl, rfl, store, refl store, answered, ?_⟩
        exact keeps_consult context (next answer) _
      · obtain ⟨computer, component, asked, before, answer', after⟩ := ih answer mem
        refine ⟨computer, component, asked, ?_, answer', after⟩
        exact IsTrans.trans _ _ _ (keeps_answer context question store) before
  | remark body next ih =>
    unfold consult at h ⊢
    rcases mem_journal_bind h with mem | ⟨_, -, mem⟩
    · simp [note] at mem
    · exact ih mem

/-- A run ends with the store of its consultation, and asks what the consultation asks. -/
theorem asked_of_mem_run {α : Type} {context : Context} {work : Consult α} {store : Store catalog}
    {exchange : Exchange} (h : .exchange exchange ∈ (context.run work store).journal) :
    exchange.computer = context.computer ∧ exchange.component = context.component.key ∧
      ∃ asked : Store catalog, GrowsIn context.Writes store asked ∧
        (context.answer exchange.question asked).result = .ok exchange.answer ∧
        GrowsIn context.Writes (context.answer exchange.question asked).state
          (context.run work store).state := by
  unfold run at h
  rcases mem_journal_bind h with mem | ⟨result, -, mem⟩
  · have same : (context.run work store).state = (context.consult work.run store).state := by
      unfold run
      cases done : (context.consult work.run store).result with
      | ok result => rw [bind_apply_ok _ done, state_ofExcept]
      | error fault => rw [bind_apply_error _ done]
    rw [same]
    exact asked_of_mem_consult mem
  · rw [journal_ofExcept] at mem
    contradiction

end Context

/-! ## Crawls -/

namespace Registry

variable {settings : SettingsSource} {limit : DepthLimit} {traced : Bool}
  {scope : String → String → Prop}

/-- The context of a run. -/
def contextOf (settings : SettingsSource) (traced : Bool) (c : Component) (computer : Computer)
    (place : Nat) : Context :=
  ⟨place, c, computer.declaration, settings c, traced⟩

/-- What a run may write is among what its computer, with others, may write to the component. -/
theorem written_of_writes {c : Component} {computer : Computer} {place : Nat}
    {computers : List Computer} (mem : computer ∈ computers) {component metric : String}
    (writes : (contextOf settings traced c computer place).Writes component metric) :
    Written [c] computers component metric :=
  ⟨⟨c, List.mem_singleton_self c, writes.1.symm⟩, computer, mem, writes.2⟩

theorem runComputer_eq (c : Component) (computer : Computer) (place : Nat) :
    (runComputer settings traced c computer place : Action (Counted (Store catalog)) Unit) =
      (((contextOf settings traced c computer place).run (computer.compute c)).uncounted >>=
        fun _ => countOne >>= fun _ => emit (.computerExecuted place c.key)) := rfl

/-- Counting a run leaves the store as the run has made it. -/
theorem state_runComputer (c : Component) (computer : Computer) (place : Nat)
    (s : Counted (Store catalog)) :
    (runComputer settings traced c computer place s).state.state =
      ((contextOf settings traced c computer place).run (computer.compute c) s.state).state := by
  rw [runComputer_eq]
  cases done : (((contextOf settings traced c computer place).run
    (computer.compute c)).uncounted s).result with
  | ok result => rw [bind_apply_ok _ done]; rfl
  | error fault => rw [bind_apply_error _ done]; rfl

theorem keeps_runComputer (c : Component) (computer : Computer) (place : Nat)
    (inside : ∀ {component metric}, Written [c] [computer] component metric →
      scope component metric) :
    Keeps (CountedGrowsIn scope)
      (runComputer settings traced c computer place : Action (Counted (Store catalog)) Unit) := by
  unfold runComputer
  refine Keeps.bind ?_ fun _ => Keeps.bind ?_ fun _ => Keeps.note _
  · intro s
    have own := Context.keeps_run (contextOf settings traced c computer place)
      (computer.compute c) s.state
    exact own.mono fun writes => inside (written_of_writes (List.mem_singleton_self _) writes)
  · exact fun s => refl s.state

theorem asked_of_mem_runComputer {c : Component} {computer : Computer} {place : Nat}
    {s : Counted (Store catalog)} {exchange : Exchange}
    (h : .exchange exchange ∈ (runComputer settings traced c computer place s).journal) :
    exchange.computer = place ∧ exchange.component = c.key ∧
      ∃ asked : Store catalog,
        let context := contextOf settings traced c computer place
        GrowsIn context.Writes s.state asked ∧
        (context.answer exchange.question asked).result = .ok exchange.answer ∧
        GrowsIn context.Writes (context.answer exchange.question asked).state
          (runComputer settings traced c computer place s).state.state := by
  rw [runComputer_eq] at h
  rcases mem_journal_bind h with mem | ⟨_, -, mem⟩
  · simp only [state_runComputer]
    exact Context.asked_of_mem_run mem
  · rcases mem_journal_bind mem with mem | ⟨_, -, mem⟩
    · contradiction
    · simp [emit, note] at mem

/-- Runs computers on one component, one after the other. -/
def runAll (settings : SettingsSource) (traced : Bool) (c : Component)
    (runs : List (Computer × Nat)) : Action (Counted (Store catalog)) Unit :=
  forM runs fun run => runComputer settings traced c run.1 run.2

theorem round_visitor (registry : Registry catalog) (c : Component) :
    (registry.visitor settings limit traced).round c =
      (emit (.visiting c.key none) >>= fun _ =>
        runAll settings traced c registry.computers.zipIdx) := by
  simp only [Visitor.round, Visitor.dispatch, visitor, runAll, List.forM_eq_forM, bind_pure_unit]

/-- The rounds of a crawl, one after the other. -/
theorem crawl_visitor (registry : Registry catalog) (root : Component) :
    (registry.visitor settings limit traced).crawl root =
      forM (root.visited limit) (registry.visitor settings limit traced).round :=
  Visitor.crawl_eq_forM_visited rfl root

theorem keeps_runs (c : Component) {computers : List Computer}
    (inside : ∀ {component metric}, Written [c] computers component metric →
      scope component metric)
    {runs : List (Computer × Nat)} (among : ∀ run ∈ runs, run.1 ∈ computers) :
    Keeps (CountedGrowsIn scope)
      (runAll settings traced c runs : Action (Counted (Store catalog)) Unit) := by
  refine Keeps.forM fun run mem => keeps_runComputer c run.1 run.2 fun written => inside ?_
  exact written.mono (List.Subset.refl _) (List.cons_subset.mpr ⟨among run mem, List.nil_subset _⟩)

theorem keeps_round (registry : Registry catalog) (c : Component)
    (inside : ∀ {component metric}, Written [c] registry.computers component metric →
      scope component metric) :
    Keeps (CountedGrowsIn scope) ((registry.visitor settings limit traced).round c) := by
  rw [round_visitor]
  refine Keeps.bind (Keeps.note _) fun _ => keeps_runs c inside fun run mem => ?_
  exact List.fst_mem_of_mem_zipIdx mem

/-- What is asked in the round of a component is asked by one of the computers; those before it have
run on the component, those after it have not. -/
theorem asked_of_mem_round {registry : Registry catalog} {c : Component}
    {s : Counted (Store catalog)} {exchange : Exchange}
    (h : .exchange exchange ∈ ((registry.visitor settings limit traced).round c s).journal) :
    ∃ earlier computer later, registry.computers = earlier ++ computer :: later ∧
      exchange.computer = earlier.length ∧ exchange.component = c.key ∧
      ∃ asked : Store catalog,
        let context := contextOf settings traced c computer earlier.length
        GrowsIn (Written [c] (earlier ++ [computer])) s.state asked ∧
        (context.answer exchange.question asked).result = .ok exchange.answer ∧
        GrowsIn (Written [c] (computer :: later)) (context.answer exchange.question asked).state
          ((registry.visitor settings limit traced).round c s).state.state := by
  rw [round_visitor] at h ⊢
  rcases mem_journal_bind h with mem | ⟨_, -, mem⟩
  · simp [emit, note] at mem
  have entered : (emit (.visiting c.key none) s).result = .ok () := rfl
  rw [bind_apply_ok _ entered]
  obtain ⟨before, ⟨computer, place⟩, after, rest, split, part, written, state⟩ :=
    round_of_mem_journal mem
  obtain ⟨earlier, others, computers, rfl, afterEq⟩ := List.zipIdx_eq_append_iff.mp split
  rw [Nat.zero_add] at afterEq
  obtain ⟨_, later, rfl, placed, rfl⟩ := List.zipIdx_eq_cons_iff.mp afterEq.symm
  obtain ⟨rfl, rfl⟩ := Prod.mk.inj placed
  obtain ⟨index, component, asked, prior, answer, next⟩ := asked_of_mem_runComputer written
  refine ⟨earlier, computer, later, computers, index, component, asked, ?_, answer, ?_⟩
  · have others : Keeps (CountedGrowsIn (Written [c] (earlier ++ [computer])))
        (runAll settings traced c earlier.zipIdx : Action (Counted (Store catalog)) Unit) :=
      keeps_runs c (fun written => written.mono (List.Subset.refl _) (List.subset_append_left _ _))
        fun run mem => List.fst_mem_of_mem_zipIdx mem
    have last : computer ∈ earlier ++ [computer] := List.mem_append_right _ List.mem_cons_self
    exact IsTrans.trans _ _ _ (others _) (prior.mono (written_of_writes last))
  · have others : Keeps (CountedGrowsIn (Written [c] (computer :: later)))
        (runAll settings traced c rest : Action (Counted (Store catalog)) Unit) :=
      keeps_runs c
        (fun written => written.mono (List.Subset.refl _) (List.subset_cons_self _ _))
        fun run mem => List.fst_mem_of_mem_zipIdx (part.subset mem)
    rw [runAll, state]
    exact IsTrans.trans _ _ _ (next.mono (written_of_writes List.mem_cons_self)) (others _)

theorem keeps_rounds (registry : Registry catalog) {visited components : List Component}
    (among : visited ⊆ components) (settings : SettingsSource) (limit : DepthLimit)
    (traced : Bool) :
    Keeps (CountedGrowsIn (Written components registry.computers))
      (forM visited (registry.visitor settings limit traced).round) :=
  Keeps.forM fun c mem => keeps_round registry c fun written =>
    written.mono (List.cons_subset.mpr ⟨among mem, List.nil_subset _⟩) (List.Subset.refl _)

/-- A crawl adds measures of declared outputs to the components it visits. -/
theorem keeps_execute (registry : Registry catalog) (settings : SettingsSource)
    (limit : DepthLimit) (traced : Bool) (root : Component) :
    Keeps (GrowsIn (Written (root.visited limit) registry.computers))
      (registry.execute settings limit traced root) := by
  intro store
  rw [execute, state_counting, crawl_visitor]
  exact keeps_rounds registry (List.Subset.refl _) settings limit traced ⟨store, 0⟩

/-- Whatever is asked in a crawl is asked by one of the computers on a component visited. The store
it is answered from has grown since the start by the rounds of the components visited before and by
the runs of the earlier computers on this component; after the answer only this computer and the
later ones write to this component, and all others only to the components after it. -/
theorem asked_of_mem_execute {registry : Registry catalog} {root : Component}
    {store : Store catalog} {exchange : Exchange}
    (h : exchange ∈ (registry.execute settings limit traced root store).exchanges) :
    ∃ before c after earlier computer later,
      root.visited limit = before ++ c :: after ∧
      registry.computers = earlier ++ computer :: later ∧
      exchange.computer = earlier.length ∧ exchange.component = c.key ∧
      ∃ asked : Store catalog,
        let context := contextOf settings traced c computer earlier.length
        GrowsIn (fun component metric => Written before registry.computers component metric ∨
          Written [c] (earlier ++ [computer]) component metric) store asked ∧
        (context.answer exchange.question asked).result = .ok exchange.answer ∧
        GrowsIn (fun component metric => Written [c] (computer :: later) component metric ∨
            Written after registry.computers component metric)
          (context.answer exchange.question asked).state
          (registry.execute settings limit traced root store).state := by
  have mem := Outcome.mem_exchanges.mp h
  rw [execute, journal_counting, crawl_visitor] at mem
  rw [execute, state_counting, crawl_visitor]
  obtain ⟨before, c, after, rest, split, part, written, state⟩ := round_of_mem_journal mem
  obtain ⟨earlier, computer, later, computers, index, component, asked, prior, answer, next⟩ :=
    asked_of_mem_round written
  refine ⟨before, c, after, earlier, computer, later, split, computers, index, component, asked,
    ?_, answer, ?_⟩
  · have begins := keeps_rounds registry (List.Subset.refl before) settings limit traced ⟨store, 0⟩
    exact IsTrans.trans _ _ _ (begins.mono Or.inl) (prior.mono Or.inr)
  · have finishes := keeps_rounds registry part.subset settings limit traced
    rw [state]
    exact IsTrans.trans _ _ _ (next.mono Or.inl) (GrowsIn.mono (finishes _) Or.inr)

end Registry

end Metrology
