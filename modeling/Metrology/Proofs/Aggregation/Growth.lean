import Metrology.Proofs.Aggregation.Gathering

/-! # What formulas write

Formulas add measures of their outputs to the components visited and do nothing else to the store,
whatever their counters do and wherever they fail.
-/

namespace Metrology.Formula

open Metrology.Action Store

variable {κ : Type} {catalog : Catalog} {scope : String → String → Prop}
  {formulas : List (Formula κ)} {limit : DepthLimit} {traced : Bool}

/-- The metric is made by one of the formulas. -/
def Makes (formulas : List (Formula κ)) (metric : String) : Prop :=
  ∃ formula ∈ formulas, metric ∈ formula.outputs

theorem keeps_storeOutput (traced : Bool) {c : Component} (formula : Formula κ) (counter : κ)
    {key : String} (inside : scope c.key key) :
    Keeps (CountedGrowsIn scope)
      (storeOutput traced c formula counter key : Action (Counted (Store catalog)) Unit) := by
  refine Keeps.bind (Keeps.ofExcept _) fun metric => ?_
  refine Keeps.bind (Keeps.ofExcept _) fun made => ?_
  cases made with
  | none => exact Keeps.pure ()
  | some measure =>
    refine Keeps.bind (Keeps.emitIf _ _) fun _ => Keeps.bind ?_ fun _ => fun s => refl s.state
    have stores : Keeps (GrowsIn scope)
        (Action.change fun store : Store catalog => store.add c.key key measure) :=
      Keeps.change fun before after h => GrowsIn.of_add h inside
    exact fun s => stores s.state

theorem keeps_storeOutputs (traced : Bool) {c : Component} (counters : List κ)
    (inside : ∀ {metric}, Makes formulas metric → scope c.key metric) :
    Keeps (CountedGrowsIn scope)
      (storeOutputs traced c formulas counters : Action (Counted (Store catalog)) Unit) := by
  refine Keeps.forM fun ⟨formula, counter⟩ mem => Keeps.forM fun key isOutput => ?_
  exact keeps_storeOutput traced formula counter
    (inside ⟨formula, (List.of_mem_zip mem).1, isOutput⟩)

variable [Counter κ]

theorem keeps_complete {c : Component} (counters : List κ)
    (inside : ∀ {metric}, Makes formulas metric → scope c.key metric) :
    Keeps (CountedGrowsIn scope)
      (complete formulas limit traced c counters : Action (Counted (Store catalog)) (List κ)) := by
  refine Keeps.bind (fun s => refl s.state) fun store => ?_
  refine Keeps.bind (Keeps.ofExcept _) fun fed => ?_
  exact Keeps.bind (keeps_storeOutputs traced fed inside) fun _ => Keeps.pure fed

theorem keeps_gatherAll {R : Counted (Store catalog) → Counted (Store catalog) → Prop}
    [IsPreorder (Counted (Store catalog)) R] {cs : List Component}
    (each : ∀ c ∈ cs, limit.Allows c.kind → ∀ depth,
      Keeps R (gather formulas limit traced c depth)) (depth : Nat) (counters : List κ) :
    Keeps R (gatherAll formulas limit traced cs depth counters) := by
  induction cs generalizing counters with
  | nil => exact Keeps.pure counters
  | cons c cs ih =>
    have rest := ih fun d mem => each d (List.mem_cons_of_mem _ mem)
    rw [gatherAll]
    by_cases allowed : limit.Allows c.kind
    · rw [if_pos allowed]
      refine Keeps.bind (each c List.mem_cons_self allowed depth) fun below => ?_
      exact Keeps.bind (Keeps.ofExcept _) fun folded => rest folded
    · rw [if_neg allowed]
      exact rest counters

theorem keeps_gather {c : Component} (allowed : limit.Allows c.kind)
    (inside : ∀ {component metric}, SlotsOf (c.visited limit) (Makes formulas) component metric →
      scope component metric) (depth : Nat) :
    Keeps (CountedGrowsIn scope)
      (gather formulas limit traced c depth : Action (Counted (Store catalog)) (List κ)) := by
  induction c generalizing depth with
  | node profile children ih =>
    rw [Component.visited_eq_cons allowed] at inside
    rw [gather]
    refine Keeps.bind (Keeps.note _) fun _ => Keeps.bind ?_ fun counters => ?_
    · refine keeps_gatherAll (fun child mem entered depth => ?_) _ _
      refine ih child mem entered (fun {component metric} held => inside ⟨?_, held.2⟩) depth
      obtain ⟨d, visited, same⟩ := held.1
      exact ⟨d, List.mem_cons_of_mem _ (List.mem_flatMap.mpr ⟨child, mem, visited⟩), same⟩
    · exact keeps_complete counters fun made => inside ⟨⟨_, List.mem_cons_self, rfl⟩, made⟩

/-- Where the root is too deep nothing is rolled up. -/
theorem rollUp_of_not_allows {root : Component} (denied : ¬ limit.Allows root.kind)
    (store : Store catalog) :
    rollUp formulas limit traced root store =
      ⟨.ok 0, store, [.event (.formulasExecuted formulas.length 0)]⟩ := by
  have nothing : (visitor formulas limit traced).crawl root =
      (pure () : Action (Counted (Store catalog)) Unit) := by
    rw [PathVisitor.crawl,
      if_neg (show ¬ (visitor formulas limit traced).limit.Allows root.kind from denied)]
  rw [rollUp, nothing]
  rfl

/-- Rolling up adds measures of the outputs to the components visited. -/
theorem keeps_rollUp (formulas : List (Formula κ)) (limit : DepthLimit) (traced : Bool)
    (root : Component) :
    Keeps (GrowsIn (SlotsOf (root.visited limit) (Makes formulas)))
      (rollUp formulas limit traced root : Action (Store catalog) Nat) := by
  intro store
  by_cases allowed : limit.Allows root.kind
  · rw [(rollUp_apply allowed store).2]
    exact keeps_gather allowed id 0 ⟨store, 0⟩
  · rw [rollUp_of_not_allows allowed store]
    exact refl store

end Metrology.Formula
