import Metrology.Proofs.Computers.Registration
import Metrology.Proofs.Computers.Runs

/-! # Who wrote what

The journal of a crawl accounts for the store: what was held at the start and what was stored in the
exchanges is what is held at the end. Since no two computers write one metric and no component is
visited twice, a measure can only get in the way of the very run that has stored it.
-/

namespace Metrology

open Metrology.Action Store

variable {catalog : Catalog}

/-- The measure that an exchange stored in a slot, if it stored one there. -/
def Exchange.stored? (component metric : String) : Exchange → Option Measure
  | ⟨_, component', .add metric' value, .ok ()⟩ =>
    if component' = component ∧ metric' = metric then some ⟨metric, value⟩ else none
  | _ => none

theorem Exchange.eq_of_stored?_eq_some {exchange : Exchange} {component metric : String}
    {measure : Measure} (h : exchange.stored? component metric = some measure) :
    measure.metric = metric ∧
      exchange = ⟨exchange.computer, component, .add metric measure.value, .ok ()⟩ := by
  unfold stored? at h
  split at h
  · split at h
    · rename_i same
      obtain ⟨rfl, rfl⟩ := same
      obtain rfl := Option.some.inj h
      exact ⟨rfl, rfl⟩
    · contradiction
  · contradiction

/-- The measures that were stored in a slot, in order. -/
def storedIn (component metric : String) (journal : List Entry) : List Measure :=
  journal.filterMap fun entry => entry.exchange?.bind (Exchange.stored? component metric)

theorem storedIn_eq_nil {journal : List Entry} (none : ∀ exchange, .exchange exchange ∉ journal)
    (component metric : String) : storedIn component metric journal = [] := by
  rw [storedIn, List.filterMap_eq_nil_iff]
  intro entry mem
  cases entry with
  | exchange held => exact absurd mem (none held)
  | event shown => rfl
  | remark body => rfl

theorem exists_exchange_of_mem_storedIn {component metric : String} {journal : List Entry}
    {measure : Measure} (h : measure ∈ storedIn component metric journal) :
    measure.metric = metric ∧
      ∃ place, .exchange ⟨place, component, .add metric measure.value, .ok ()⟩ ∈ journal := by
  obtain ⟨entry, mem, stored⟩ := List.mem_filterMap.mp h
  cases entry with
  | exchange held =>
    obtain ⟨named, eq⟩ := Exchange.eq_of_stored?_eq_some stored
    exact ⟨named, held.computer, eq ▸ mem⟩
  | event shown => contradiction
  | remark body => contradiction

/-- What was held and what was stored on the way is what is held at the end. -/
def Balances (before : Store catalog) (journal : List Entry) (after : Store catalog) : Prop :=
  ∀ component metric, (before.find? component metric).toList ++ storedIn component metric journal =
    (after.find? component metric).toList

instance : IsLedger (@Balances catalog) where
  nil _ _ _ := List.append_nil _
  append first second component metric := by
    rw [storedIn, List.filterMap_append, ← List.append_assoc]
    exact (congrArg (· ++ _) (first component metric)).trans (second component metric)

theorem Balances.of_no_exchange {store : Store catalog} {journal : List Entry}
    (none : ∀ exchange, .exchange exchange ∉ journal) : Balances store journal store := by
  intro component metric
  rw [storedIn_eq_nil none, List.append_nil]

/-- An entry that says a run of a computer has ended well. -/
def Entry.EndsRun (entry : Entry) : Prop :=
  ∃ computer component, entry = .event (.computerExecuted computer component)

namespace Context

variable {context : Context} {store : Store catalog}

/-- A question is always answered, if only by a refusal. -/
theorem exists_answer (context : Context) (question : Question) (store : Store catalog) :
    ∃ answer, (context.answer question store).result = .ok answer := by
  cases question <;> exact ⟨_, rfl⟩

theorem result_add (context : Context) (metric : String) (value : Value) (store : Store catalog) :
    (context.add metric value store).result =
      (context.addition store metric value).map fun _ => () := by
  cases allowed : context.addition store metric value with
  | ok measure =>
    obtain ⟨_, run⟩ := add_apply_of_ok allowed
    rw [run]
    rfl
  | error fault =>
    rw [add_apply_of_error allowed]
    rfl

theorem addition_eq_error {metric : String} {value : Value} {fault : Fault}
    (h : (context.add metric value store).result = .error fault) :
    context.addition store metric value = .error fault := by
  rw [result_add] at h
  cases allowed : context.addition store metric value with
  | ok measure =>
    rw [allowed] at h
    cases h
  | error fault' =>
    rw [allowed] at h
    exact congrArg Except.error (Except.error.inj h)

theorem declared_of_added {metric : String} {value : Value}
    (h : (context.add metric value store).result = .ok ()) :
    metric ∈ context.declaration.outputs := by
  rw [result_add] at h
  cases allowed : context.addition store metric value with
  | ok measure => exact (of_addition_eq_ok allowed).1
  | error fault =>
    rw [allowed] at h
    cases h

/-- What is added for a metric is a measure of this metric with the value that was given. -/
theorem eq_of_addition_eq_ok {metric : String} {value : Value} {measure : Measure}
    (h : context.addition store metric value = .ok measure) : measure = ⟨metric, value⟩ := by
  obtain ⟨-, ⟨found, known, named, -⟩, free⟩ := of_addition_eq_ok h
  unfold addition at h
  split at h
  · rw [Store.get_of_find? known, free, Catalog.get_of_find? known] at h
    replace h : Measure.of found value = .ok measure := h
    unfold Measure.of at h
    split at h
    · obtain rfl := Except.ok.inj h
      rw [← named]
    · contradiction
  · contradiction

/-- A measure exists already where one is held for a declared output. -/
theorem of_addition_eq_alreadyExists {metric : String} {value : Value} {known holder : String}
    (h : context.addition store metric value = .error (.measureAlreadyExists known holder)) :
    metric ∈ context.declaration.outputs ∧
      ∃ held, store.find? context.component.key metric = some held := by
  unfold addition at h
  split at h
  · rename_i declared
    refine ⟨declared, ?_⟩
    cases found : catalog.find? metric with
    | none =>
      rw [Store.get, found] at h
      cases h
    | some metric' =>
      rw [Store.get_of_find? found] at h
      cases held : store.find? context.component.key metric with
      | some measure => exact ⟨measure, rfl⟩
      | none =>
        rw [held, Catalog.get_of_find? found] at h
        replace h : Measure.of metric' value = .error (.measureAlreadyExists known holder) := h
        unfold Measure.of at h
        split at h <;> cases h
  · cases h

/-- A question and its answer account for what the answering did to the store. -/
theorem balances_answer {question : Question} {answer : question.Answer}
    (answered : (context.answer question store).result = .ok answer) :
    Balances store ((context.answer question store).journal ++
        [.exchange ⟨context.computer, context.component.key, question, answer⟩])
      (context.answer question store).state := by
  intro component metric
  have silent : storedIn component metric (context.answer question store).journal = [] :=
    storedIn_eq_nil (fun _ => exchange_not_mem_answer) component metric
  rw [storedIn, List.filterMap_append, ← storedIn, silent, List.nil_append]
  cases question with
  | measure key => exact List.append_nil _
  | children key => exact List.append_nil _
  | settings => exact List.append_nil _
  | add key value =>
    have result : (context.add key value store).result = answer := Except.ok.inj answered
    rw [result_add] at result
    subst result
    change _ = ((context.add key value store).state.find? component metric).toList
    cases allowed : context.addition store key value with
    | error fault =>
      rw [add_apply_of_error allowed]
      exact List.append_nil _
    | ok measure =>
      obtain ⟨admits, run⟩ := add_apply_of_ok allowed
      obtain ⟨-, -, free⟩ := of_addition_eq_ok allowed
      rw [run, find?_put]
      by_cases here : component = context.component.key ∧ metric = key
      · obtain ⟨rfl, rfl⟩ := here
        rw [free, if_pos ⟨rfl, rfl⟩, eq_of_addition_eq_ok allowed]
        simp [Entry.exchange?, Exchange.stored?, Except.map]
      · have elsewhere : ¬ (context.component.key = component ∧ key = metric) :=
          fun same => here ⟨same.1.symm, same.2.symm⟩
        rw [if_neg here]
        simp [Entry.exchange?, Exchange.stored?, Except.map, elsewhere]

theorem balances_consult {α : Type} (context : Context) (work : Consultation α) :
    Accounted Balances (context.consult work : Action (Store catalog) α) := by
  induction work with
  | done value => exact Accounted.pure value
  | ask question next ih =>
    intro store
    obtain ⟨answer, answered⟩ := context.exists_answer question store
    have noted := balances_answer answered
    rw [consult, bind_apply_ok _ answered]
    have rest := IsLedger.append noted (ih answer (context.answer question store).state)
    rwa [List.append_assoc] at rest
  | remark body next ih =>
    exact Accounted.bind (fun _ => Balances.of_no_exchange (by simp [note])) fun _ => ih

/-- What is asked in the course of a consultation is answered from a store that the entries written
so far account for. -/
theorem asked_of_journal_consult {α : Type} {work : Consultation α} {earlier later : List Entry}
    {exchange : Exchange}
    (h : (context.consult work store).journal = earlier ++ .exchange exchange :: later) :
    ∃ asked : Store catalog, Balances store earlier asked ∧
      (context.answer exchange.question asked).result = .ok exchange.answer := by
  induction work generalizing store earlier with
  | done value => simp [consult] at h
  | ask question next ih =>
    rw [consult] at h
    rcases journal_bind_eq_append_cons h with ⟨rest, shown⟩ | ⟨answer, own, answered, rfl, written⟩
    · have mem : .exchange exchange ∈ (context.answer question store).journal := by simp [shown]
      exact absurd mem exchange_not_mem_answer
    · rcases journal_bind_eq_append_cons written with ⟨rest, noted⟩ | ⟨_, own', -, rfl, further⟩
      · -- The question is this one: nothing was stored since the start.
        rcases List.singleton_eq_append_iff.mp noted with ⟨rfl, last⟩ | ⟨-, impossible⟩
        · obtain rfl := Entry.exchange.inj (List.cons.inj last).1
          rw [List.append_nil]
          exact ⟨store, Balances.of_no_exchange fun _ => exchange_not_mem_answer, answered⟩
        · contradiction
      · obtain ⟨asked, accounts, answer'⟩ := ih answer further
        have before := IsLedger.append (balances_answer answered) accounts
        rw [List.append_assoc] at before
        exact ⟨asked, before, answer'⟩
  | remark body next ih =>
    rw [consult] at h
    rcases journal_bind_eq_append_cons h with ⟨rest, noted⟩ | ⟨_, own, -, rfl, written⟩
    · rcases List.singleton_eq_append_iff.mp noted with ⟨-, last⟩ | ⟨-, last⟩ <;> cases last
    · obtain ⟨asked, accounts, answer⟩ := ih written
      have noted : Balances store [.remark body] store := Balances.of_no_exchange (by simp)
      exact ⟨asked, IsLedger.append noted accounts, answer⟩

theorem run_apply {α : Type} (work : Consult α) :
    (context.run work store).journal = (context.consult work.run store).journal ∧
      (context.run work store).state = (context.consult work.run store).state := by
  unfold run
  cases done : (context.consult work.run store).result with
  | ok result =>
    rw [bind_apply_ok _ done]
    simp only [journal_ofExcept, state_ofExcept, List.append_nil, and_self]
  | error fault =>
    rw [bind_apply_error _ done]
    exact ⟨rfl, rfl⟩

theorem balances_run {α : Type} (context : Context) (work : Consult α) :
    Accounted Balances (context.run work : Action (Store catalog) α) :=
  Accounted.bind (balances_consult context work.run) fun result => Accounted.ofExcept result

/-- Answering shows at most that a measure is added. -/
theorem of_mem_journal_answer {question : Question} {entry : Entry}
    (h : entry ∈ (context.answer question store).journal) :
    ∃ component metric value, entry = .event (.measureAdded component metric value) := by
  cases question with
  | measure key => contradiction
  | children key => contradiction
  | settings => contradiction
  | add key value =>
    replace h : entry ∈ (context.add key value store).journal := h
    cases allowed : context.addition store key value with
    | error fault =>
      rw [add_apply_of_error allowed] at h
      contradiction
    | ok measure =>
      obtain ⟨_, run⟩ := add_apply_of_ok allowed
      rw [run] at h
      cases traced : context.traced with
      | true =>
        simp only [traced, if_true, List.mem_singleton] at h
        exact ⟨_, _, _, h⟩
      | false => simp [traced] at h

/-- As long as a run goes on, no run ends. -/
theorem not_endsRun_of_mem_run {α : Type} {work : Consult α} {entry : Entry}
    (h : entry ∈ (context.run work store).journal) : ¬ entry.EndsRun := by
  rw [(run_apply work).1] at h
  generalize work.run = consultation at h
  induction consultation generalizing store with
  | done value => contradiction
  | ask question next ih =>
    rw [consult] at h
    rintro ⟨place, component, rfl⟩
    rcases mem_journal_bind h with shown | ⟨answer, -, written⟩
    · obtain ⟨_, _, _, same⟩ := of_mem_journal_answer shown
      cases same
    · rcases mem_journal_bind written with noted | ⟨_, -, further⟩
      · cases List.mem_singleton.mp noted
      · exact ih answer further ⟨place, component, rfl⟩
  | remark body next ih =>
    rw [consult] at h
    rintro ⟨place, component, rfl⟩
    rcases mem_journal_bind h with noted | ⟨_, -, further⟩
    · cases List.mem_singleton.mp noted
    · exact ih further ⟨place, component, rfl⟩

/-- What a run may not add because it exists was there when the run began, or the run itself has
added it. -/
theorem refused_in_run {α : Type} {work : Consult α} {own rest : List Entry} {place : Nat}
    {component metric known holder : String} {value : Value}
    (h : (context.run work store).journal = own ++ .exchange ⟨place, component, .add metric value,
      .error (.measureAlreadyExists known holder)⟩ :: rest) :
    component = context.component.key ∧ metric ∈ context.declaration.outputs ∧
      ((∃ held, store.find? component metric = some held) ∨
        ∃ sooner value' since,
          own = sooner ++ .exchange ⟨place, component, .add metric value', .ok ()⟩ :: since ∧
            ∀ entry ∈ since, ¬ entry.EndsRun) := by
  have inRun : ∀ entry ∈ own, entry ∈ (context.run work store).journal := by
    intro entry mem
    rw [h]
    exact List.mem_append_left _ mem
  have mem : .exchange ⟨place, component, .add metric value,
      .error (.measureAlreadyExists known holder)⟩ ∈ (context.run work store).journal := by
    rw [h]
    exact List.mem_append_right _ List.mem_cons_self
  obtain ⟨here, there, -⟩ := asked_of_mem_run mem
  replace here : place = context.computer := here
  replace there : component = context.component.key := there
  subst here there
  rw [(run_apply work).1] at h
  obtain ⟨asked, balances, answered⟩ := asked_of_journal_consult h
  have refused := addition_eq_error (Except.ok.inj answered)
  obtain ⟨declared, held, present⟩ := of_addition_eq_alreadyExists refused
  refine ⟨rfl, declared, ?_⟩
  have account := balances context.component.key metric
  rw [present] at account
  cases atStart : store.find? context.component.key metric with
  | some measure => exact .inl ⟨measure, rfl⟩
  | none =>
    right
    rw [atStart, Option.toList_none, List.nil_append] at account
    have stored : held ∈ storedIn context.component.key metric own := by simp [account]
    obtain ⟨-, place, written⟩ := exists_exchange_of_mem_storedIn stored
    have here : place = context.computer := (asked_of_mem_run (inRun _ written)).1
    subst here
    obtain ⟨sooner, since, rfl⟩ := List.append_of_mem written
    refine ⟨sooner, held.value, since, rfl, fun entry mem => ?_⟩
    exact not_endsRun_of_mem_run (inRun entry (by simp [mem]))

end Context

/-! ## Crawls -/

/-- Balance of stores beside which runs are counted. -/
def CountedBalances (before : Counted (Store catalog)) (journal : List Entry)
    (after : Counted (Store catalog)) : Prop :=
  Balances before.state journal after.state

instance : IsLedger (@CountedBalances catalog) where
  nil s := IsLedger.nil (R := Balances) s.state
  append first second := IsLedger.append (R := Balances) first second

namespace Registry

variable {settings : SettingsSource} {limit : DepthLimit} {traced : Bool}

theorem balances_emit (event : Event) :
    Accounted CountedBalances (emit event : Action (Counted (Store catalog)) Unit) :=
  fun _ => Balances.of_no_exchange (by simp [emit, note])

theorem balances_runComputer (c : Component) (computer : Computer) (place : Nat) :
    Accounted CountedBalances
      (runComputer settings traced c computer place : Action (Counted (Store catalog)) Unit) := by
  rw [runComputer_eq]
  refine Accounted.bind ?_ fun _ => Accounted.bind ?_ fun _ => balances_emit _
  · exact fun s => Context.balances_run _ (computer.compute c) s.state
  · exact fun s => IsLedger.nil (R := Balances) s.state

/-- The journal of a crawl accounts for what it has done to the store. -/
theorem balances_execute (registry : Registry catalog) (settings : SettingsSource)
    (limit : DepthLimit) (traced : Bool) (root : Component) :
    Accounted Balances (registry.execute settings limit traced root) := by
  intro store
  rw [execute, state_counting, journal_counting, crawl_visitor]
  have rounds : Accounted CountedBalances
      (forM (root.visited limit) (registry.visitor settings limit traced).round) := by
    refine Accounted.forM fun c _ => ?_
    rw [round_visitor]
    exact Accounted.bind (balances_emit _) fun _ =>
      Accounted.forM fun run _ => balances_runComputer c run.1 run.2
  exact rounds ⟨store, 0⟩

/-- What is asked in the run of a computer is asked before the run is counted. -/
theorem own_of_journal_runComputer {c : Component} {computer : Computer} {place : Nat}
    {s : Counted (Store catalog)} {earlier later : List Entry} {exchange : Exchange}
    (h : (runComputer settings traced c computer place s).journal =
      earlier ++ .exchange exchange :: later) :
    ∃ rest, ((contextOf settings traced c computer place).run (computer.compute c)
      s.state).journal = earlier ++ .exchange exchange :: rest := by
  rw [runComputer_eq] at h
  rcases journal_bind_eq_append_cons h with written | ⟨_, own, -, -, written⟩
  · exact written
  · have mem : .exchange exchange ∈ own ++ .exchange exchange :: later := by simp
    rw [← written] at mem
    rcases mem_journal_bind mem with mem | ⟨_, -, mem⟩
    · contradiction
    · simp [emit, note] at mem

/-- What is asked in the round of a component is asked in the run of one of the computers, after the
runs of the computers before it. -/
theorem run_of_journal_round {registry : Registry catalog} {c : Component}
    {s : Counted (Store catalog)} {earlier later : List Entry} {exchange : Exchange}
    (h : ((registry.visitor settings limit traced).round c s).journal =
      earlier ++ .exchange exchange :: later) :
    ∃ sooner computer others, registry.computers = sooner ++ computer :: others ∧
      ∃ (start : Store catalog) (prior own rest : List Entry),
        GrowsIn (Written [c] sooner) s.state start ∧ earlier = prior ++ own ∧
        ((contextOf settings traced c computer sooner.length).run (computer.compute c)
          start).journal = own ++ .exchange exchange :: rest := by
  rw [round_visitor] at h
  rcases journal_bind_eq_append_cons h with ⟨_, entered⟩ | ⟨_, inRuns, -, rfl, written⟩
  · rcases List.singleton_eq_append_iff.mp entered with ⟨-, last⟩ | ⟨-, last⟩ <;> cases last
  obtain ⟨_, ⟨computer, place⟩, _, own, _, split, rfl, inRun⟩ := journal_forM_eq_append_cons written
  obtain ⟨sooner, rest, computers, rfl, placed⟩ := List.zipIdx_eq_append_iff.mp split
  rw [Nat.zero_add] at placed
  obtain ⟨_, others, rfl, here, -⟩ := List.zipIdx_eq_cons_iff.mp placed.symm
  obtain ⟨rfl, rfl⟩ := Prod.mk.inj here
  obtain ⟨_, asks⟩ := own_of_journal_runComputer inRun
  have runs : Keeps (CountedGrowsIn (Written [c] sooner))
      (runAll settings traced c sooner.zipIdx : Action (Counted (Store catalog)) Unit) :=
    keeps_runs c id fun run mem => List.fst_mem_of_mem_zipIdx mem
  exact ⟨sooner, computer, others, computers, _, _, own, _, runs _, (List.append_assoc _ _ _).symm,
    asks⟩

/-- What is asked in a crawl is asked in the run of a computer on a component visited. The run
starts from a store to which the computers have added on the components before, and those registered
before on this component. -/
theorem run_of_journal_execute {registry : Registry catalog} {root : Component}
    {store : Store catalog} {earlier later : List Entry} {exchange : Exchange}
    (h : (registry.execute settings limit traced root store).journal =
      earlier ++ .exchange exchange :: later) :
    ∃ before c after sooner computer others,
      root.visited limit = before ++ c :: after ∧
      registry.computers = sooner ++ computer :: others ∧
      ∃ (start : Store catalog) (prior own rest : List Entry),
        GrowsIn (fun component metric => Written before registry.computers component metric ∨
          Written [c] sooner component metric) store start ∧
        earlier = prior ++ own ∧
        ((contextOf settings traced c computer sooner.length).run (computer.compute c)
          start).journal = own ++ .exchange exchange :: rest := by
  rw [execute, journal_counting, crawl_visitor] at h
  obtain ⟨before, c, after, inRound, _, visited, rfl, written⟩ := journal_forM_eq_append_cons h
  obtain ⟨sooner, computer, others, computers, start, prior, own, rest, runs, rfl, asks⟩ :=
    run_of_journal_round written
  have rounds := keeps_rounds registry (List.Subset.refl before) settings limit traced ⟨store, 0⟩
  have grows := IsTrans.trans _ _ _ (GrowsIn.mono rounds Or.inl) (runs.mono Or.inr)
  exact ⟨before, c, after, sooner, computer, others, visited, computers, start, _, own, rest, grows,
    (List.append_assoc _ _ _).symm, asks⟩

/-- The slots that a computer may write on a component are empty of what the crawl has written
before its run. -/
theorem not_written_before {registry : Registry catalog} {tree : ComponentTree}
    {before after : List Component} {c : Component} {sooner others : List Computer}
    {computer : Computer} (visited : tree.root.visited limit = before ++ c :: after)
    (computers : registry.computers = sooner ++ computer :: others) {metric : String}
    (writes : metric ∈ computer.declaration.outputs) :
    ¬ (Written before registry.computers c.key metric ∨ Written [c] sooner c.key metric) := by
  rintro (⟨⟨d, mem, same⟩, -⟩ | ⟨-, writer, mem, writes'⟩)
  · have nodup := tree.nodup_visited limit
    rw [visited, List.map_append, List.map_cons, List.nodup_append] at nodup
    exact nodup.2.2 d.key (List.mem_map_of_mem mem) c.key List.mem_cons_self same
  · have ordered := registry.ordered
    rw [computers, List.pairwise_append] at ordered
    exact (ordered.2.2 writer mem computer List.mem_cons_self metric writes).1 writes'

/-- Every measure has a single writer. A computer is refused a measure because one exists only if
one was there before the crawl, or the same run has added one, no run having ended since. A measure
that the crawl adds was stored in one exchange, by the one computer that declares its metric as an
output, on the component it is held for. This holds also of crawls that fail. -/
theorem single_writer (registry : Registry catalog) (tree : ComponentTree)
    (settings : SettingsSource) (limit : DepthLimit) (traced : Bool) (store : Store catalog) :
    let outcome := registry.execute settings limit traced tree.root store
    (∀ (earlier later : List Entry) (place : Nat) (component metric known holder : String)
      (value : Value),
      outcome.journal = earlier ++ .exchange ⟨place, component, .add metric value,
          .error (.measureAlreadyExists known holder)⟩ :: later →
        (∃ held, store.find? component metric = some held) ∨
          ∃ sooner value' since,
            earlier = sooner ++ .exchange ⟨place, component, .add metric value', .ok ()⟩ :: since ∧
              ∀ entry ∈ since, ¬ entry.EndsRun) ∧
      ∀ (component metric : String) (measure : Measure),
        store.find? component metric = none →
        outcome.state.find? component metric = some measure →
          storedIn component metric outcome.journal = [measure] ∧
          ∃ place computer,
            .exchange ⟨place, component, .add metric measure.value, .ok ()⟩ ∈ outcome.journal ∧
            registry.computers[place]? = some computer ∧ metric ∈ computer.declaration.outputs ∧
            (∀ place' computer', registry.computers[place']? = some computer' →
              metric ∈ computer'.declaration.outputs → place' = place) ∧
            ∃ c ∈ tree.components, c.key = component ∧ limit.Allows c.kind := by
  intro outcome
  constructor
  · intro earlier later place component metric known holder value h
    obtain ⟨before, c, after, sooner, computer, others, visited, computers, start, prior, own, rest,
      grows, rfl, asks⟩ := run_of_journal_execute h
    obtain ⟨here, declared, held⟩ := Context.refused_in_run asks
    replace here : component = c.key := here
    subst here
    rcases held with ⟨held, atStart⟩ | ⟨sooner', value', since, rfl, sameRun⟩
    · left
      rw [grows.outside (not_written_before visited computers declared)] at atStart
      exact ⟨held, atStart⟩
    · right
      exact ⟨prior ++ sooner', value', since, by rw [List.append_assoc], sameRun⟩
  · intro component metric measure absent present
    have balance := balances_execute registry settings limit traced tree.root store component metric
    rw [absent, present, Option.toList_none, List.nil_append] at balance
    refine ⟨balance, ?_⟩
    have stored : measure ∈ storedIn component metric outcome.journal := by
      rw [balance]
      exact List.mem_singleton_self measure
    obtain ⟨-, place, written⟩ := exists_exchange_of_mem_storedIn stored
    obtain ⟨before, c, after, sooner, computer, others, visited, computers, rfl, rfl, asked, -,
      answered, -⟩ := asked_of_mem_execute (Outcome.mem_exchanges.mpr written)
    have declared : metric ∈ computer.declaration.outputs :=
      Context.declared_of_added (Except.ok.inj answered)
    have here : registry.computers[sooner.length]? = some computer := by simp [computers]
    have mem : c ∈ tree.root.visited limit := by simp [visited]
    refine ⟨sooner.length, computer, written, here, declared, ?_, c,
      (Component.visited_sublist_preorder limit tree.root).subset mem, rfl,
      Component.allows_of_mem_visited mem⟩
    exact fun place' computer' there writes => place_eq_of_writes there here writes declared

end Registry

namespace WriterWitnesses

def metrics : Catalog := ⟨[⟨"ncloc", .int, "Lines of code"⟩], by decide⟩

/-- Gives every component seven lines, and then eight. -/
def lines : Computer where
  declaration := ⟨∅, Std.ExtTreeSet.ofList ["ncloc"]⟩
  compute _ := do
    Consult.add "ncloc" (.int 7)
    Consult.add "ncloc" (.int 8)

theorem lines_known : lines.declaration.Known metrics :=
  (Declaration.objection?_eq_none_iff.mp
    (by decide +kernel : lines.declaration.objection? metrics [] = none)).1

def registry : Registry metrics where
  computers := [lines]
  known := by simp [lines_known]

def tree : ComponentTree :=
  ⟨.node ⟨"P", none, "P", .project ⟨1, none, none⟩⟩
    [.node ⟨"M", none, "M", .module ⟨2, none, none⟩⟩ []], by decide, by decide⟩

def run : Outcome (Store metrics) Nat :=
  registry.execute (fun _ => {}) .file false tree.root ∅

/-- Whether an entry says that the project was refused the eight lines. -/
def refusesEight : Entry → Bool
  | .exchange ⟨0, "P", .add "ncloc" (.int n), .error (.measureAlreadyExists "ncloc" "P")⟩ => n == 8
  | _ => false

theorem eight_refused : .exchange ⟨0, "P", .add "ncloc" (.int 8),
    .error (.measureAlreadyExists "ncloc" "P")⟩ ∈ run.journal := by
  have found : run.journal.any refusesEight = true := by decide +kernel
  obtain ⟨entry, mem, held⟩ := List.any_eq_true.mp found
  unfold refusesEight at held
  split at held
  · rw [eq_of_beq held] at mem
    exact mem
  · contradiction

/-- Whether a measure is that of seven lines. -/
def isSeven : Option Measure → Bool
  | some ⟨"ncloc", .int n⟩ => n == 7
  | _ => false

theorem seven_held : run.state.find? "P" "ncloc" = some ⟨"ncloc", .int 7⟩ := by
  have found : isSeven (run.state.find? "P" "ncloc") = true := by decide +kernel
  unfold isSeven at found
  split at found
  · rename_i found'
    rw [found', eq_of_beq found]
  · contradiction

/-- The crawl fails at the project, where the run of the computer gets in its own way. -/
theorem single_writer_twice :
    ∃ earlier later,
      run.journal = earlier ++ .exchange ⟨0, "P", .add "ncloc" (.int 8),
        .error (.measureAlreadyExists "ncloc" "P")⟩ :: later ∧
      ((∃ held, (∅ : Store metrics).find? "P" "ncloc" = some held) ∨
        ∃ sooner value' since,
          earlier = sooner ++ .exchange ⟨0, "P", .add "ncloc" value', .ok ()⟩ :: since ∧
            ∀ entry ∈ since, ¬ entry.EndsRun) ∧
      (∅ : Store metrics).find? "P" "ncloc" = none ∧
      run.state.find? "P" "ncloc" = some ⟨"ncloc", .int 7⟩ ∧
      storedIn "P" "ncloc" run.journal = [⟨"ncloc", .int 7⟩] := by
  have absent : (∅ : Store metrics).find? "P" "ncloc" = none := by decide +kernel
  obtain ⟨earlier, later, split⟩ := List.append_of_mem eight_refused
  obtain ⟨refused, added⟩ := Registry.single_writer registry tree (fun _ => {}) .file false ∅
  exact ⟨earlier, later, split, refused earlier later 0 "P" "ncloc" "ncloc" "P" (.int 8) split,
    absent, seven_held, (added "P" "ncloc" ⟨"ncloc", .int 7⟩ absent seven_held).1⟩

end WriterWitnesses

end Metrology
