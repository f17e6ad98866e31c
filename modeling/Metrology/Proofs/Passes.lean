import Metrology.Pass
import Metrology.Proofs.Aggregation.Growth
import Metrology.Proofs.Computers.Runs

/-! # What a pass leaves behind

A pass of formulas and computers only adds. It keeps every measure that was there, and it adds
measures within its depth limit and for the declared outputs of its steps, also where it fails.
-/

namespace Metrology

open Metrology.Action Store

variable {catalog : Catalog}

/-- What the steps of a pass are made of: formulas of one kind, or the computers of a registry. -/
inductive Stage (catalog : Catalog) : Type 1 where
  | formulas {κ : Type} [Counter κ] (description : String) (formulas : List (Formula κ))
  | computers (registry : Registry catalog)

namespace Stage

/-- The step of a pass. -/
def step : Stage catalog → Step catalog
  | @formulas _ _ _ description rules => .formulas description rules
  | .computers registry => .computers registry

/-- The metric is an output of one of the formulas or of one of the computers. -/
def Outputs : Stage catalog → String → Prop
  | @formulas _ _ _ _ rules, metric => Formula.Makes rules metric
  | .computers registry, metric =>
    ∃ computer ∈ registry.computers, metric ∈ computer.declaration.outputs

theorem keeps_execute (stage : Stage catalog) (context : PassContext) :
    Keeps (GrowsIn (SlotsOf (context.tree.root.visited context.options.limit) stage.Outputs))
      (stage.step.execute context) := by
  cases stage with
  | formulas description rules =>
    exact Keeps.bind (Formula.keeps_rollUp rules _ _ _) fun _ => Keeps.pure ()
  | computers registry =>
    exact Keeps.bind (registry.keeps_execute _ _ _ _) fun _ => Keeps.pure ()

end Stage

namespace Pass

theorem keeps_storeSize {R : Store catalog → Store catalog → Prop} [IsPreorder (Store catalog) R] :
    Keeps R (storeSize : Action (Store catalog) Nat) :=
  Keeps.bind Keeps.get fun _ => Keeps.pure _

theorem keeps_runStep {R : Store catalog → Store catalog → Prop} [IsPreorder (Store catalog) R]
    {context : PassContext} {step : Step catalog} (executed : Keeps R (step.execute context)) :
    Keeps R (runStep context step) := by
  refine Keeps.bind keeps_storeSize fun before => Keeps.bind executed fun _ => ?_
  exact Keeps.bind keeps_storeSize fun after => Keeps.note _

/-- What every step of a pass does to the store, the whole pass does. -/
theorem keeps_run {R : Store catalog → Store catalog → Prop} [IsPreorder (Store catalog) R]
    {pass : Pass catalog} {tree : ComponentTree} {settings : SettingsSource}
    (each : ∀ step ∈ pass.steps, Keeps R (step.execute ⟨tree, settings, pass.options⟩)) :
    Keeps R (pass.run tree settings) := by
  refine Keeps.bind keeps_storeSize fun before => Keeps.bind (Keeps.note _) fun _ => ?_
  refine Keeps.bind (Keeps.forM fun step mem => keeps_runStep (each step mem)) fun _ => ?_
  exact Keeps.bind keeps_storeSize fun after => Keeps.bind (Keeps.note _) fun _ => Keeps.pure _

/-- A pass of any formulas and any computers, whether it succeeds or fails, keeps every measure.
What it adds is held for a component of the tree within the depth limit and for a metric of the
catalog that is an output of one of its steps, and has either no value or one of the type of this
metric. The store never gets smaller, so that the numbers of added measures are true differences. -/
theorem run_only_adds (options : PassOptions) (stages : List (Stage catalog)) (tree : ComponentTree)
    (settings : SettingsSource) (store : Store catalog) :
    let outcome := (Pass.mk options (stages.map Stage.step)).run tree settings store
    (∀ component metric measure, store.find? component metric = some measure →
        outcome.state.find? component metric = some measure) ∧
      (∀ component metric measure, outcome.state.find? component metric = some measure →
        store.find? component metric = none →
          (∃ c ∈ tree.components, c.key = component ∧ options.limit.Allows c.kind) ∧
          (∃ stage ∈ stages, stage.Outputs metric) ∧
          ∃ declared, catalog.find? metric = some declared ∧ measure.metric = metric ∧
            measure.value.Fits declared.valueType) ∧
      (∀ stage ∈ stages, ∀ before : Store catalog,
        before.size ≤ (stage.step.execute ⟨tree, settings, options⟩ before).state.size) ∧
      store.size ≤ outcome.state.size := by
  intro outcome
  let outputs : String → Prop := fun metric => ∃ stage ∈ stages, stage.Outputs metric
  have grows : GrowsIn (SlotsOf (tree.root.visited options.limit) outputs) store outcome.state := by
    refine keeps_run (fun step mem => ?_) store
    obtain ⟨stage, stageMem, rfl⟩ := List.mem_map.mp mem
    intro before
    exact (stage.keeps_execute _ before).mono fun inside => ⟨inside.1, stage, stageMem, inside.2⟩
  refine ⟨fun _ _ _ held => grows.kept held, ?_, ?_, grows.size_le⟩
  · intro component metric measure present absent
    have inside : SlotsOf (tree.root.visited options.limit) outputs component metric := by
      by_contra outside
      rw [grows.outside outside, absent] at present
      contradiction
    obtain ⟨⟨c, visited, same⟩, output⟩ := inside
    refine ⟨⟨c, ?_, same, Component.allows_of_mem_visited visited⟩, output,
      Store.admits_of_find? present⟩
    exact (Component.visited_sublist_preorder options.limit tree.root).subset visited
  · exact fun stage _ before => (stage.keeps_execute _ before).size_le

end Pass

namespace PassWitnesses

def metrics : Catalog :=
  ⟨[⟨"ncloc", .int, "Lines of code"⟩, ⟨"total", .int, "Total"⟩, ⟨"big", .bool, "Big"⟩], by decide⟩

/-- Calls a component big that has a total. -/
def size : Computer where
  declaration := ⟨Std.ExtTreeSet.ofList ["total"], Std.ExtTreeSet.ofList ["big"]⟩
  compute _ := do
    let held ← Consult.measure "total"
    Consult.add "big" (.boolean held.isSome)

theorem size_known : size.declaration.Known metrics :=
  (Declaration.objection?_eq_none_iff.mp
    (by decide +kernel : size.declaration.objection? metrics [] = none)).1

def stages : List (Stage metrics) :=
  [.formulas "Sums" [(Formula.sum "ncloc" "total" : Formula (SumCounter Int32))],
    .computers { computers := [size], known := by simp [size_known] }]

def tree : ComponentTree :=
  ⟨.node ⟨"P", none, "P", .project ⟨1, none, none⟩⟩
    [.node ⟨"F", none, "F", .file ⟨3, none, none⟩ {}⟩ []], by decide, by decide⟩

/-- The file has two lines. -/
def measured : Store metrics :=
  (∅ : Store metrics).put "F" "ncloc" ⟨"ncloc", .int 2⟩ ⟨_, rfl, rfl, .inr rfl⟩

def run : Outcome (Store metrics) PassSummary :=
  (Pass.mk {} (stages.map Stage.step)).run tree (fun _ => {}) measured

/-- Whether a measure says that a component is big. -/
def isBig : Option Measure → Bool
  | some ⟨"big", .boolean b⟩ => b
  | _ => false

theorem project_big : run.state.find? "P" "big" = some ⟨"big", .boolean true⟩ := by
  have found : isBig (run.state.find? "P" "big") = true := by decide +kernel
  unfold isBig at found
  split at found
  · rename_i found'
    rw [found', found]
  · contradiction

/-- The lines of the file stay, and the project is called big by a computer that reads a sum. -/
theorem run_only_adds_project :
    measured.find? "F" "ncloc" = some ⟨"ncloc", .int 2⟩ ∧
      run.state.find? "F" "ncloc" = some ⟨"ncloc", .int 2⟩ ∧
      run.state.find? "P" "big" = some ⟨"big", .boolean true⟩ ∧
      measured.find? "P" "big" = none ∧
      (∃ c ∈ tree.components, c.key = "P" ∧ DepthLimit.file.Allows c.kind) ∧
      (∃ stage ∈ stages, stage.Outputs "big") ∧ measured.size ≤ run.state.size := by
  have held : measured.find? "F" "ncloc" = some ⟨"ncloc", .int 2⟩ :=
    (Store.find?_put _ _ _ _ _ _ _).trans (if_pos ⟨rfl, rfl⟩)
  have absent : measured.find? "P" "big" = none := by decide +kernel
  obtain ⟨keeps, adds, -, size⟩ := Pass.run_only_adds {} stages tree (fun _ => {}) measured
  obtain ⟨component, output, -⟩ := adds "P" "big" ⟨"big", .boolean true⟩ project_big absent
  exact ⟨held, keeps "F" "ncloc" _ held, project_big, absent, component, output, size⟩

end PassWitnesses

end Metrology
