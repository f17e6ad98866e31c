import Mathlib.Algebra.Ring.Nat
import Metrology.Proofs.Aggregation.Logs
import Metrology.Proofs.Computers.Logs
import Metrology.Proofs.Histories
import Metrology.Proofs.Passes

/-! # The books of a pass

A pass counts what it does in several places: the steps count what they store, the pass compares the
sizes of the store, and the log tells of visits, of runs and of measures. Where the pass succeeds,
all of these agree, and they are the same whether it is traced or not.
-/

namespace Metrology

open Metrology.Action Store

variable {catalog : Catalog}

/-- A step at work in a pass. -/
structure Execution (catalog : Catalog) : Type 1 where
  stage : Stage catalog
  /-- What the store held when the step began. -/
  before : Store catalog
  outcome : Outcome (Store catalog) Unit

namespace Execution

/-- The number of measures by which the store has grown. -/
def added (execution : Execution catalog) : Nat :=
  execution.outcome.state.size - execution.before.size

/-- What a pass writes into the log for the step: the step's own entries, and one at the end. -/
def entries (execution : Execution catalog) : List Entry :=
  execution.outcome.journal ++
    [.event (.stepExecuted execution.stage.step.description execution.added)]

/-- The measures that the step tells of storing. -/
def stored (execution : Execution catalog) : List (Slot × Measure) :=
  execution.outcome.events.filterMap Event.stored?

end Execution

namespace Stage

/-- The steps at work, each on the store that the one before it has left. -/
def executions (context : PassContext) :
    List (Stage catalog) → Store catalog → List (Execution catalog)
  | [], _ => []
  | stage :: stages, store =>
    let outcome := stage.step.execute context store
    ⟨stage, store, outcome⟩ :: executions context stages outcome.state

/-- What a step reports besides its visits: a roll-up the number of measures it has stored,
computers every single run. -/
def Reports (components added : Nat) (events : List Event) : Stage catalog → Prop
  | @formulas _ _ _ _ rules => events.filterMap Event.rolledUp? = [(rules.length, added)]
  | .computers registry => (events.filterMap Event.ran?).length = components * registry.size

end Stage

/-- The books of one step agree, where so many components lie within the depth limit. -/
structure Execution.Balanced (components : Nat) (traced : Bool) (execution : Execution catalog) :
    Prop where
  succeeds : execution.outcome.result = .ok ()
  grows : execution.before.size ≤ execution.outcome.state.size
  visits : (execution.outcome.events.filterMap Event.entered?).length = components
  /-- The step leaves it to the pass to tell of its end. -/
  quiet : execution.outcome.events.filterMap Event.executed? = []
  reports : execution.stage.Reports components execution.added execution.outcome.events
  /-- The measures told of are those added, in the order in which they were added. -/
  told : traced = true → execution.before.addAll execution.stored = some execution.outcome.state

/-! ## The log -/

namespace Execution

/-- The events that a pass shows for the step. -/
def shown (execution : Execution catalog) : List Event :=
  execution.outcome.events ++
    [.stepExecuted execution.stage.step.description execution.added]

theorem events_entries (steps : List (Execution catalog)) :
    (steps.flatMap entries).filterMap Entry.event? = steps.flatMap shown := by
  rw [List.filterMap_flatMap]
  refine List.flatMap_congr fun execution _ => ?_
  rw [entries, List.filterMap_append]
  rfl

/-- At the end of each step, and nowhere else, the pass tells how much it has added. -/
theorem executed_shown {components : Nat} {traced : Bool} {steps : List (Execution catalog)}
    (balanced : ∀ execution ∈ steps, execution.Balanced components traced) :
    (steps.flatMap shown).filterMap Event.executed? =
      steps.map fun execution => (execution.stage.step.description, execution.added) := by
  rw [List.filterMap_flatMap, List.map_eq_flatMap]
  refine List.flatMap_congr fun execution mem => ?_
  rw [shown, List.filterMap_append, (balanced execution mem).quiet]
  rfl

theorem stored_shown (steps : List (Execution catalog)) :
    (steps.flatMap shown).filterMap Event.stored? = steps.flatMap stored := by
  rw [List.filterMap_flatMap]
  refine List.flatMap_congr fun execution _ => ?_
  rw [shown, List.filterMap_append]
  exact List.append_nil _

end Execution

/-! ## The steps -/

namespace Component

theorem countWithin_eq_length (limit : DepthLimit) (c : Component) :
    c.countWithin limit = (c.visited limit).length := by
  have all : ∀ cs : List Component,
      (∀ c ∈ cs, c.countWithin limit = (c.visited limit).length) →
        countAllWithin limit cs = (cs.flatMap (visited limit)).length := by
    intro cs each
    induction cs with
    | nil => rfl
    | cons c cs ih =>
      rw [countAllWithin, each c List.mem_cons_self,
        ih fun d mem => each d (List.mem_cons_of_mem _ mem), List.flatMap_cons, List.length_append]
  induction c with
  | node profile children ih =>
    rw [countWithin]
    by_cases allowed : limit.Allows (node profile children).kind
    · rw [if_pos (show limit.Allows profile.role.kind from allowed), all children ih,
        visited_eq_cons allowed, List.length_cons, Nat.add_comm]
      rfl
    · rw [if_neg (show ¬ limit.Allows profile.role.kind from allowed), visited_eq_nil allowed]
      rfl

theorem length_keys_visited (limit : DepthLimit) (c : Component) :
    ((c.visited limit).map key).length = c.countWithin limit := by
  rw [List.length_map, countWithin_eq_length]

end Component

namespace Stage

variable {context : PassContext} {store : Store catalog}

theorem stages_executions (context : PassContext) (stages : List (Stage catalog))
    (store : Store catalog) : (executions context stages store).map Execution.stage = stages := by
  induction stages generalizing store with
  | nil => rfl
  | cons stage stages ih => exact congrArg (stage :: ·) (ih _)

theorem balanced_formulas {κ : Type} [Counter κ] (description : String)
    (rules : List (Formula κ))
    (ok : ((Step.formulas description rules).execute context store).result = .ok ()) :
    Execution.Balanced (context.tree.root.countWithin context.options.limit) context.options.traced
      ⟨.formulas description rules, store,
        (Step.formulas description rules).execute context store⟩ := by
  have grows := ((Stage.formulas description rules).keeps_execute context store).size_le
  obtain ⟨tree, settings, limit, traced⟩ := context
  obtain ⟨number, result, -⟩ := of_bind_eq_ok ok
  have run : (Step.formulas description rules).execute ⟨tree, settings, limit, traced⟩ store = _ :=
    discard_apply (Formula.rollUp rules limit traced tree.root) store
  rw [step, run] at grows
  rw [run]
  refine ⟨congrArg (Except.map _) result, grows, ?_, Formula.executed_rollUp result, ?_, ?_⟩
  · have entered := congrArg List.length (Formula.entered_rollUp result)
    rwa [Component.length_keys_visited] at entered
  · have rolledUp := Formula.rolledUp_rollUp result
    have added := Formula.size_rollUp result
    rwa [← Nat.sub_eq_of_eq_add' added] at rolledUp
  · rintro rfl
    exact (Formula.replays_rollUp result).1

theorem balanced_computers (registry : Registry catalog)
    (ok : ((Step.computers registry).execute context store).result = .ok ()) :
    Execution.Balanced (context.tree.root.countWithin context.options.limit) context.options.traced
      ⟨.computers registry, store, (Step.computers registry).execute context store⟩ := by
  have grows := ((Stage.computers registry).keeps_execute context store).size_le
  obtain ⟨tree, settings, limit, traced⟩ := context
  obtain ⟨runs, result, -⟩ := of_bind_eq_ok ok
  have run : (Step.computers registry).execute ⟨tree, settings, limit, traced⟩ store = _ :=
    discard_apply (registry.execute settings limit traced tree.root) store
  rw [step, run] at grows
  rw [run]
  refine ⟨congrArg (Except.map _) result, grows, ?_, registry.executed_execute result, ?_, ?_⟩
  · have entered := congrArg List.length (registry.entered_execute result)
    rwa [Component.length_keys_visited] at entered
  · have ran : ((registry.execute settings limit traced tree.root store).events.filterMap
        Event.ran?).length = tree.root.countWithin limit * registry.size := by
      rw [registry.ran_execute result, List.length_flatMap, Component.countWithin_eq_length]
      simp [Registry.size]
    exact ran
  · rintro rfl
    exact registry.replays_execute settings limit tree.root store

/-- A step that succeeds keeps its books. -/
theorem balanced_execute (stage : Stage catalog)
    (ok : (stage.step.execute context store).result = .ok ()) :
    Execution.Balanced (context.tree.root.countWithin context.options.limit) context.options.traced
      ⟨stage, store, stage.step.execute context store⟩ := by
  cases stage with
  | formulas description rules => exact balanced_formulas description rules ok
  | computers registry => exact balanced_computers registry ok

end Stage

/-! ## The pass -/

namespace Pass

theorem runStep_of_ok {context : PassContext} {step : Step catalog} {store : Store catalog}
    (ok : (step.execute context store).result = .ok ()) :
    let outcome := step.execute context store
    runStep context step store = ⟨.ok (), outcome.state, outcome.journal ++
      [.event (.stepExecuted step.description (outcome.state.size - store.size))]⟩ := by
  intro outcome
  have before : (storeSize store : Outcome (Store catalog) Nat).result = .ok store.size := rfl
  have after : (storeSize outcome.state : Outcome (Store catalog) Nat).result =
    .ok outcome.state.size := rfl
  have idle : ∀ s : Store catalog, storeSize s = ⟨.ok s.size, s, []⟩ := fun _ => rfl
  rw [runStep, bind_apply_ok _ before, idle, bind_apply_ok _ ok, bind_apply_ok _ after, idle]
  rfl

theorem runStep_of_error {context : PassContext} {step : Step catalog} {store : Store catalog}
    {fault : Fault} (failed : (step.execute context store).result = .error fault) :
    (runStep context step store).result = .error fault := by
  have before : (storeSize store : Outcome (Store catalog) Nat).result = .ok store.size := rfl
  have idle : storeSize store = ⟨.ok store.size, store, []⟩ := rfl
  rw [runStep, bind_apply_ok _ before, idle, bind_apply_error _ failed]

/-- Runs the steps of a pass. -/
def runSteps (context : PassContext) (stages : List (Stage catalog)) :
    Action (Store catalog) Unit :=
  forM (stages.map Stage.step) (runStep context)

theorem runSteps_cons_of_ok {context : PassContext} {stage : Stage catalog}
    {stages : List (Stage catalog)} {store : Store catalog}
    (ok : (runSteps context (stage :: stages) store).result = .ok ()) :
    let executed := stage.step.execute context store
    let rest := runSteps context stages executed.state
    executed.result = .ok () ∧ rest.result = .ok () ∧
      runSteps context (stage :: stages) store =
        ⟨.ok (), rest.state, Execution.entries ⟨stage, store, executed⟩ ++ rest.journal⟩ := by
  intro executed rest
  rw [runSteps, List.map_cons, List.forM_cons] at ok ⊢
  cases result : executed.result with
  | ok done =>
    have run := runStep_of_ok result
    have first : (runStep context stage.step store).result = .ok () := by rw [run]
    rw [bind_apply_ok _ first, run] at ok ⊢
    exact ⟨rfl, ok, congrArg (Outcome.mk · _ _) ok⟩
  | error fault =>
    have failed := runStep_of_error result
    rw [bind_apply_error _ failed] at ok
    contradiction

/-- Steps that all succeed: what they write into the log, and by how much the store grows. -/
theorem balanced_runSteps {context : PassContext} {stages : List (Stage catalog)}
    {store : Store catalog} (ok : (runSteps context stages store).result = .ok ()) :
    let outcome := runSteps context stages store
    let steps := Stage.executions context stages store
    outcome.journal = steps.flatMap Execution.entries ∧
      (∀ execution ∈ steps, execution.Balanced
        (context.tree.root.countWithin context.options.limit) context.options.traced) ∧
      outcome.state.size = store.size + (steps.map Execution.added).sum ∧
      (context.options.traced = true →
        store.addAll (steps.flatMap Execution.stored) = some outcome.state) := by
  induction stages generalizing store with
  | nil => exact ⟨rfl, fun _ mem => absurd mem List.not_mem_nil, rfl, fun _ => rfl⟩
  | cons stage stages ih =>
    obtain ⟨executed, rest, whole⟩ := runSteps_cons_of_ok ok
    have balanced := stage.balanced_execute executed
    obtain ⟨journal, each, size, told⟩ := ih rest
    rw [whole]
    refine ⟨?_, List.forall_mem_cons.mpr ⟨balanced, each⟩, ?_, fun traced => ?_⟩
    · exact congrArg _ journal
    · have grows : store.size ≤ (stage.step.execute context store).state.size := balanced.grows
      rw [Stage.executions, List.map_cons, List.sum_cons, ← Nat.add_assoc, Execution.added,
        Nat.add_sub_cancel' grows]
      exact size
    · rw [Stage.executions, List.flatMap_cons, Store.addAll_append, balanced.told traced]
      exact told traced

/-- The end of a pass that has begun with so many measures. -/
def conclude (components before steps : Nat) : Action (Store catalog) PassSummary := do
  let after ← storeSize
  emit (.passFinished (after - before))
  return ⟨components, after - before, steps⟩

/-- A pass that succeeds runs all of its steps, and tells of its start and of its end. -/
theorem run_of_ok {options : PassOptions} {stages : List (Stage catalog)} {tree : ComponentTree}
    {settings : SettingsSource} {store : Store catalog} {summary : PassSummary}
    (ok : ((Pass.mk options (stages.map Stage.step)).run tree settings store).result =
      .ok summary) :
    let components := tree.root.countWithin options.limit
    let steps := runSteps ⟨tree, settings, options⟩ stages store
    steps.result = .ok () ∧
      summary = ⟨components, steps.state.size - store.size, (stages.map Stage.step).length⟩ ∧
      (Pass.mk options (stages.map Stage.step)).run tree settings store =
        ⟨.ok summary, steps.state,
          .event (.passStarted tree.root.key components (stages.map Stage.step).length) ::
            (steps.journal ++ [.event (.passFinished summary.measures)])⟩ := by
  intro components steps
  have opened : (Pass.mk options (stages.map Stage.step)).run tree settings store =
      let rest := (runSteps ⟨tree, settings, options⟩ stages >>= fun _ =>
        conclude components store.size (stages.map Stage.step).length) store
      ⟨rest.result, rest.state, .event (.passStarted tree.root.key components
        (stages.map Stage.step).length) :: rest.journal⟩ := rfl
  rw [opened] at ok ⊢
  obtain ⟨_, result, closes⟩ := of_bind_eq_ok ok
  obtain rfl : _ = summary := Except.ok.inj closes
  rw [bind_apply_ok _ result]
  exact ⟨result, rfl, rfl⟩

/-- Whether it is traced makes no difference to a pass, whether it succeeds or fails. -/
theorem unlogged_run (options : PassOptions) (traced : Bool) (stages : List (Stage catalog))
    (tree : ComponentTree) (settings : SettingsSource) :
    ((Pass.mk { options with traced := traced } (stages.map Stage.step)).run tree
        settings).unlogged =
      ((Pass.mk options (stages.map Stage.step)).run tree settings).unlogged := by
  refine unlogged_bind_congr rfl fun before => unlogged_bind_congr rfl fun _ => ?_
  refine unlogged_bind_congr (unlogged_forM_congr fun step mem => ?_) fun _ => rfl
  obtain ⟨stage, -, rfl⟩ := List.mem_map.mp mem
  refine unlogged_bind_congr rfl fun before => unlogged_bind_congr ?_ fun _ => rfl
  cases stage with
  | formulas description rules =>
    exact unlogged_bind_congr (Formula.unlogged_rollUp rules _ _ _ _) fun _ => rfl
  | computers registry =>
    exact unlogged_bind_congr (registry.unlogged_execute _ _ _ _ _) fun _ => rfl

end Pass

namespace BookWitnesses

open PassWitnesses

/-- The pass that sums lines and calls components big, traced. -/
def traced : Outcome (Store metrics) PassSummary :=
  (Pass.mk { traced := true } (stages.map Stage.step)).run tree (fun _ => {}) measured

theorem wellFormed_root : tree.root.WellFormed := by
  refine .node (by decide) ?_
  intro child mem
  obtain rfl := List.mem_singleton.mp mem
  exact .node (by simp) (by simp)

end BookWitnesses

end Metrology
