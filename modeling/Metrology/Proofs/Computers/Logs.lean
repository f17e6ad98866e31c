import Metrology.Proofs.Computers.Accounts
import Metrology.Proofs.Logs

/-! # What crawls of computers log

A crawl of computers that succeeds tells of every component it enters, and there of every computer
that it has run, in the order of the registration. If it is traced it tells of every measure as it
is stored. Whether it is traced makes no difference to what it does.
-/

namespace Metrology

open Metrology.Action Store

variable {catalog : Catalog} {β : Type} {pick : Event → Option β}

namespace Context

/-! ## The events of a run -/

/-- Answering shows nothing, unless it is measures that are added. -/
theorem told_answer (quiet : ∀ component metric value,
    pick (.measureAdded component metric value) = none) (context : Context) (question : Question) :
    Leads (Told pick []) (context.answer question : Action (Store catalog) question.Answer) := by
  intro store _ _
  rw [Told, List.filterMap_filterMap, List.filterMap_eq_nil_iff]
  intro entry mem
  obtain ⟨component, metric, value, rfl⟩ := of_mem_journal_answer mem
  exact quiet component metric value

theorem told_consult {α : Type} (quiet : ∀ component metric value,
    pick (.measureAdded component metric value) = none) (context : Context)
    (work : Consultation α) :
    Leads (Told pick []) (context.consult work : Action (Store catalog) α) := by
  induction work with
  | done value => exact Leads.pure value
  | ask question next ih =>
    refine Leads.bind_nil (told_answer quiet context question) fun answer => ?_
    exact Leads.bind_nil (fun _ _ _ => rfl) fun _ => ih answer
  | remark body next ih => exact Leads.bind_nil (fun _ _ _ => rfl) fun _ => ih

theorem told_run {α : Type} (quiet : ∀ component metric value,
    pick (.measureAdded component metric value) = none) (context : Context) (work : Consult α) :
    Leads (Told pick []) (context.run work : Action (Store catalog) α) :=
  Leads.bind_nil (told_consult quiet context work.run) fun result => Leads.ofExcept result

/-! ## The measures a run stores -/

/-- A refusal is not told of, and what is told of was not refused. -/
theorem replays_answer {context : Context} (traced : context.traced = true) (question : Question) :
    Accounted Replays (context.answer question : Action (Store catalog) question.Answer) := by
  intro store
  cases question with
  | measure metric => exact IsLedger.nil (R := Replays) store
  | children metric => exact IsLedger.nil (R := Replays) store
  | settings => exact IsLedger.nil (R := Replays) store
  | add metric value =>
    change Replays store (context.add metric value store).journal
      (context.add metric value store).state
    cases allowed : context.addition store metric value with
    | error fault =>
      rw [add_apply_of_error allowed]
      exact IsLedger.nil (R := Replays) store
    | ok measure =>
      obtain ⟨admits, run⟩ := add_apply_of_ok allowed
      obtain ⟨-, -, free⟩ := of_addition_eq_ok allowed
      obtain rfl := eq_of_addition_eq_ok allowed
      have stored := add_eq_ok_iff.mpr ⟨admits, free, rfl⟩
      rw [run, if_pos traced, Replays, storedBy]
      refine (addAll_cons store _ []).trans ?_
      exact congrArg (Option.bind · _) (add?_eq_some_iff.mpr stored)

theorem replays_consult {α : Type} {context : Context} (traced : context.traced = true)
    (work : Consultation α) :
    Accounted Replays (context.consult work : Action (Store catalog) α) := by
  induction work with
  | done value => exact Accounted.pure value
  | ask question next ih =>
    refine Accounted.bind (replays_answer traced question) fun answer => ?_
    exact Accounted.bind (fun store => IsLedger.nil (R := Replays) store) fun _ => ih answer
  | remark body next ih =>
    exact Accounted.bind (fun store => IsLedger.nil (R := Replays) store) fun _ => ih

theorem replays_run {α : Type} {context : Context} (traced : context.traced = true)
    (work : Consult α) : Accounted Replays (context.run work : Action (Store catalog) α) :=
  Accounted.bind (replays_consult traced work.run) fun result => Accounted.ofExcept result

/-! ## Traced and untraced -/

theorem unlogged_add (context : Context) (traced : Bool) (metric : String) (value : Value) :
    ({ context with traced := traced }.add metric value : Action (Store catalog) Unit).unlogged =
      (context.add metric value).unlogged := by
  refine unlogged_bind_congr rfl fun store => unlogged_bind_congr rfl fun measure => ?_
  refine unlogged_bind_congr ?_ fun _ => rfl
  rw [unlogged_emitIf, unlogged_emitIf]

theorem unlogged_answer (context : Context) (traced : Bool) (question : Question) :
    ({ context with traced := traced }.answer question :
      Action (Store catalog) question.Answer).unlogged = (context.answer question).unlogged := by
  cases question with
  | measure metric => rfl
  | children metric => rfl
  | settings => rfl
  | add metric value =>
    funext store
    have same := congrFun (unlogged_add context traced metric value) store
    obtain ⟨result, state⟩ := Prod.mk.inj same
    exact Prod.ext (congrArg Except.ok result) state

theorem unlogged_consult {α : Type} (context : Context) (traced : Bool) (work : Consultation α) :
    ({ context with traced := traced }.consult work : Action (Store catalog) α).unlogged =
      (context.consult work).unlogged := by
  induction work with
  | done value => rfl
  | ask question next ih =>
    refine unlogged_bind_congr (unlogged_answer context traced question) fun answer => ?_
    exact unlogged_bind_congr rfl fun _ => ih answer
  | remark body next ih => exact unlogged_bind_congr rfl fun _ => ih

theorem unlogged_run {α : Type} (context : Context) (traced : Bool) (work : Consult α) :
    ({ context with traced := traced }.run work : Action (Store catalog) α).unlogged =
      (context.run work).unlogged :=
  unlogged_bind_congr (unlogged_consult context traced work.run) fun _ => rfl

end Context

/-! ## Crawls -/

/-- Replay of stores beside which runs are counted. -/
def CountedReplays (before : Counted (Store catalog)) (journal : List Entry)
    (after : Counted (Store catalog)) : Prop :=
  Replays before.state journal after.state

instance : IsLedger (@CountedReplays catalog) where
  nil s := IsLedger.nil (R := Replays) s.state
  append first second := IsLedger.append (R := Replays) first second

namespace Registry

variable {settings : SettingsSource} {limit : DepthLimit} {traced : Bool}

theorem told_runComputer (quiet : ∀ component metric value,
    pick (.measureAdded component metric value) = none) (c : Component) (computer : Computer)
    (place : Nat) :
    Leads (Told pick (pick (.computerExecuted place c.key)).toList)
      (runComputer settings traced c computer place : Action (Counted (Store catalog)) Unit) := by
  rw [runComputer_eq]
  refine Leads.bind_nil (told_uncounted (Context.told_run quiet _ _)) fun _ => ?_
  exact Leads.bind_nil told_countOne fun _ => told_emit _

/-- A crawl of computers tells of the components it enters, parents first, and at each of them of
the computers it has run. Of the measures that are added `pick` must take no notice. -/
theorem told_execute (quiet : ∀ component metric value,
    pick (.measureAdded component metric value) = none) {registry : Registry catalog}
    {root : Component} {store : Store catalog} {runs : Nat}
    (ok : (registry.execute settings limit traced root store).result = .ok runs) :
    (registry.execute settings limit traced root store).events.filterMap pick =
      (root.visited limit).flatMap fun c =>
        (pick (.visiting c.key none)).toList ++ registry.computers.zipIdx.flatMap fun run =>
          (pick (.computerExecuted run.2 c.key)).toList := by
  have rounds : Leads (Told pick ((root.visited limit).flatMap fun c =>
      (pick (.visiting c.key none)).toList ++ registry.computers.zipIdx.flatMap fun run =>
        (pick (.computerExecuted run.2 c.key)).toList))
      ((registry.visitor settings limit traced).crawl root) := by
    rw [crawl_visitor]
    refine Leads.forM fun c _ => ?_
    rw [round_visitor]
    refine Leads.bind (told_emit _) fun _ => ?_
    exact Leads.forM fun run _ => told_runComputer quiet c run.1 run.2
  exact Leads.of_counting rounds ok

/-- A crawl of computers enters the components within its limit, parents first. -/
theorem entered_execute {registry : Registry catalog} {root : Component} {store : Store catalog}
    {runs : Nat} (ok : (registry.execute settings limit traced root store).result = .ok runs) :
    (registry.execute settings limit traced root store).events.filterMap Event.entered? =
      (root.visited limit).map Component.key := by
  rw [told_execute (fun _ _ _ => rfl) ok, List.map_eq_flatMap]
  refine List.flatMap_congr fun c _ => ?_
  have silent : (registry.computers.zipIdx.flatMap fun run =>
      (Event.entered? (.computerExecuted run.2 c.key)).toList) = [] :=
    List.flatMap_eq_nil_iff.mpr fun _ _ => rfl
  rw [silent]
  rfl

/-- At every component within the limit all computers are run, in the order of the registration. -/
theorem ran_execute {registry : Registry catalog} {root : Component} {store : Store catalog}
    {runs : Nat} (ok : (registry.execute settings limit traced root store).result = .ok runs) :
    (registry.execute settings limit traced root store).events.filterMap Event.ran? =
      (root.visited limit).flatMap fun c =>
        registry.computers.zipIdx.map fun run => (run.2, c.key) := by
  rw [told_execute (fun _ _ _ => rfl) ok]
  refine List.flatMap_congr fun c _ => ?_
  rw [List.map_eq_flatMap]
  rfl

/-- It is not for a crawl of computers to tell of the end of a step. -/
theorem executed_execute {registry : Registry catalog} {root : Component} {store : Store catalog}
    {runs : Nat} (ok : (registry.execute settings limit traced root store).result = .ok runs) :
    (registry.execute settings limit traced root store).events.filterMap Event.executed? = [] := by
  rw [told_execute (fun _ _ _ => rfl) ok]
  refine List.flatMap_eq_nil_iff.mpr fun c _ => ?_
  exact List.append_eq_nil_iff.mpr ⟨rfl, List.flatMap_eq_nil_iff.mpr fun _ _ => rfl⟩

/-- A traced crawl of computers tells of what it stores, measure by measure in the order of storing,
also where it fails. -/
theorem replays_execute (registry : Registry catalog) (settings : SettingsSource)
    (limit : DepthLimit) (root : Component) :
    Accounted Replays (registry.execute settings limit true root) := by
  intro store
  rw [execute, state_counting, journal_counting, crawl_visitor]
  have silent : ∀ event, event.stored? = none →
      Accounted CountedReplays (emit event : Action (Counted (Store catalog)) Unit) := by
    intro event silent s
    have nothing : storedBy [.event event] = [] := by simp [storedBy, Entry.event?, silent]
    change s.state.addAll (storedBy [.event event]) = some s.state
    rw [nothing]
    rfl
  have rounds : Accounted CountedReplays
      (forM (root.visited limit) (registry.visitor settings limit true).round) := by
    refine Accounted.forM fun c _ => ?_
    rw [round_visitor]
    refine Accounted.bind (silent _ rfl) fun _ => Accounted.forM fun run _ => ?_
    rw [runComputer_eq]
    refine Accounted.bind ?_ fun _ => Accounted.bind ?_ fun _ => silent _ rfl
    · exact fun s => Context.replays_run rfl (run.1.compute c) s.state
    · exact fun s => IsLedger.nil (R := Replays) s.state
  exact rounds ⟨store, 0⟩

/-- Whether it is traced makes no difference to a crawl, whether it succeeds or fails. -/
theorem unlogged_execute (registry : Registry catalog) (settings : SettingsSource)
    (limit : DepthLimit) (traced traced' : Bool) (root : Component) :
    (registry.execute settings limit traced root).unlogged =
      (registry.execute settings limit traced' root).unlogged := by
  refine unlogged_counting_congr ?_
  rw [crawl_visitor, crawl_visitor]
  refine unlogged_forM_congr fun c _ => ?_
  rw [round_visitor, round_visitor]
  refine unlogged_bind_congr rfl fun _ => unlogged_forM_congr fun run _ => ?_
  rw [runComputer_eq, runComputer_eq]
  refine unlogged_bind_congr (unlogged_uncounted_congr ?_) fun _ => rfl
  exact (Context.unlogged_run (contextOf settings traced c run.1 run.2) traced'
    (run.1.compute c)).symm

end Registry

end Metrology
