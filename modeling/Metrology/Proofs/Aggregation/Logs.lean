import Metrology.Proofs.Aggregation.Growth
import Metrology.Proofs.Logs

/-! # What a roll-up logs

A roll-up that succeeds tells of every component it enters and, if it is traced, of every measure it
stores, in the order in which it stores them. The number it gives is that of the measures it has
stored. Whether it is traced makes no difference to what it does.
-/

namespace Metrology.Formula

open Metrology.Action Store

variable {κ : Type} {catalog : Catalog} {formulas : List (Formula κ)} {limit : DepthLimit}
  {traced : Bool}

/-! ## Following the recursion -/

section Recursion

variable [Counter κ]
  {R : List Component → Counted (Store catalog) → List Entry → Counted (Store catalog) → Prop}
  [IsItemized R]

theorem leads_complete {c : Component}
    (stores : ∀ (formula : Formula κ) (counter : κ) (key : String),
      Leads (R []) (storeOutput traced c formula counter key)) (counters : List κ) :
    Leads (R []) (complete formulas limit traced c counters) := by
  refine Leads.bind_nil (fun s _ _ => IsItemized.nil s) fun store => ?_
  refine Leads.bind_nil (Leads.ofExcept _) fun fed => ?_
  refine Leads.bind_nil (Leads.forM_nil fun pair _ => ?_) fun _ => Leads.pure fed
  exact Leads.forM_nil fun key _ => stores pair.1 pair.2 key

theorem leads_gatherAll {cs : List Component}
    (each : ∀ c ∈ cs, limit.Allows c.kind → ∀ depth,
      Leads (R (c.visited limit)) (gather formulas limit traced c depth)) (depth : Nat)
    (counters : List κ) :
    Leads (R (cs.flatMap (Component.visited limit)))
      (gatherAll formulas limit traced cs depth counters) := by
  induction cs generalizing counters with
  | nil => exact Leads.pure counters
  | cons c cs ih =>
    have rest := ih fun d mem => each d (List.mem_cons_of_mem _ mem)
    rw [gatherAll, List.flatMap_cons]
    by_cases allowed : limit.Allows c.kind
    · rw [if_pos allowed]
      refine Leads.bind (each c List.mem_cons_self allowed depth) fun below => ?_
      exact Leads.bind_nil (Leads.ofExcept _) fun folded => rest folded
    · rw [if_neg allowed, Component.visited_eq_nil allowed, List.nil_append]
      exact rest counters

/-- Gathering is followed from component to component: each is entered before those below it, and
what it stores belongs to no other. -/
theorem leads_gather {c : Component} (allowed : limit.Allows c.kind)
    (enters : ∀ (d : Component) (depth : Nat),
      Leads (R [d]) (emit (.visiting d.key (some depth)) : Action (Counted (Store catalog)) Unit))
    (stores : ∀ (d : Component) (formula : Formula κ) (counter : κ) (key : String),
      Leads (R []) (storeOutput traced d formula counter key)) (depth : Nat) :
    Leads (R (c.visited limit)) (gather formulas limit traced c depth) := by
  induction c generalizing depth with
  | node profile children ih =>
    have below : Leads (R (children.flatMap (Component.visited limit)))
        (gatherAll formulas limit traced children (depth + 1) (formulas.map Formula.counter)) :=
      leads_gatherAll (fun child mem entered depth => ih child mem entered depth) _ _
    rw [gather, Component.visited_eq_cons allowed]
    refine Leads.bind (enters (.node profile children) depth) fun _ => ?_
    exact Leads.bind_last below fun counters => leads_complete (stores _) counters

theorem leads_crawl
    (enters : ∀ (d : Component) (depth : Nat),
      Leads (R [d]) (emit (.visiting d.key (some depth)) : Action (Counted (Store catalog)) Unit))
    (stores : ∀ (d : Component) (formula : Formula κ) (counter : κ) (key : String),
      Leads (R []) (storeOutput traced d formula counter key)) (root : Component) :
    Leads (R (root.visited limit)) ((visitor formulas limit traced).crawl root) := by
  by_cases allowed : limit.Allows root.kind
  · rw [crawl_eq_gather allowed]
    exact Leads.bind_last (leads_gather allowed enters stores 0) fun _ => Leads.pure ()
  · rw [Component.visited_eq_nil allowed, PathVisitor.crawl,
      if_neg (show ¬ (visitor formulas limit traced).limit.Allows root.kind from allowed)]
    exact Leads.pure ()

end Recursion

/-! ## The components entered -/

theorem told_storeOutput {β : Type} {pick : Event → Option β}
    (quiet : ∀ component metric value, pick (.measureCreated component metric value) = none)
    (c : Component) (formula : Formula κ) (counter : κ) (key : String) :
    Leads (Told pick [])
      (storeOutput traced c formula counter key : Action (Counted (Store catalog)) Unit) := by
  refine Leads.bind_nil (Leads.ofExcept _) fun metric => ?_
  refine Leads.bind_nil (Leads.ofExcept _) fun made => ?_
  cases made with
  | none => exact Leads.pure ()
  | some measure =>
    refine Leads.bind_nil (told_emitIf (quiet _ _ _) traced) fun _ => ?_
    exact Leads.bind_nil (told_uncounted (told_change _)) fun _ => told_countOne

/-- A roll-up that succeeds is a crawl that succeeds and tells of its end. -/
theorem rollUp_of_ok [Counter κ] {root : Component} {store : Store catalog} {stored : Nat}
    (ok : (rollUp formulas limit traced root store).result = .ok stored) :
    let counted := counting ((visitor formulas limit traced).crawl root) store
    counted.result = .ok stored ∧ rollUp formulas limit traced root store =
      ⟨.ok stored, counted.state,
        counted.journal ++ [.event (.formulasExecuted formulas.length stored)]⟩ := by
  intro counted
  rw [rollUp] at ok ⊢
  obtain ⟨number, result, told⟩ := of_bind_eq_ok ok
  obtain rfl : number = stored := Except.ok.inj told
  rw [bind_apply_ok _ result]
  exact ⟨result, rfl⟩

/-- A roll-up tells of the components it enters, parents first, and at the end of the number of
measures it has stored. Of the measures themselves `pick` must take no notice, nor of depths. -/
theorem told_rollUp [Counter κ] {β : Type} {pick : Event → Option β}
    (quiet : ∀ component metric value, pick (.measureCreated component metric value) = none)
    (blind : ∀ component depth,
      pick (.visiting component (some depth)) = pick (.visiting component none))
    {root : Component} {store : Store catalog} {stored : Nat}
    (ok : (rollUp formulas limit traced root store).result = .ok stored) :
    (rollUp formulas limit traced root store).events.filterMap pick =
      ((root.visited limit).flatMap fun c => (pick (.visiting c.key none)).toList) ++
        (pick (.formulasExecuted formulas.length stored)).toList := by
  have enters : ∀ (d : Component) (depth : Nat),
      Leads (ToldOf pick (fun c => (pick (.visiting c.key none)).toList) [d])
        (emit (.visiting d.key (some depth)) : Action (Counted (Store catalog)) Unit) := by
    intro d depth
    have leads : Leads (Told pick (pick (.visiting d.key (some depth))).toList)
        (emit (.visiting d.key (some depth)) : Action (Counted (Store catalog)) Unit) :=
      told_emit _
    rwa [blind, ← List.flatMap_singleton (fun c : Component =>
      (pick (.visiting c.key none)).toList) d] at leads
  obtain ⟨counted, run⟩ := rollUp_of_ok ok
  have crawled := Leads.of_counting (leads_crawl enters (told_storeOutput quiet) root) counted
  rw [run, Outcome.events, List.filterMap_append, List.filterMap_append]
  refine congrArg₂ (· ++ ·) crawled ?_
  cases picked : pick (.formulasExecuted formulas.length stored) <;> simp [Entry.event?, picked]

/-- A roll-up enters the components within its limit, parents first. -/
theorem entered_rollUp [Counter κ] {root : Component} {store : Store catalog} {stored : Nat}
    (ok : (rollUp formulas limit traced root store).result = .ok stored) :
    (rollUp formulas limit traced root store).events.filterMap Event.entered? =
      (root.visited limit).map Component.key := by
  rw [told_rollUp (fun _ _ _ => rfl) (fun _ _ => rfl) ok, List.map_eq_flatMap]
  exact List.append_nil _

/-- A roll-up tells once of its end. -/
theorem rolledUp_rollUp [Counter κ] {root : Component} {store : Store catalog} {stored : Nat}
    (ok : (rollUp formulas limit traced root store).result = .ok stored) :
    (rollUp formulas limit traced root store).events.filterMap Event.rolledUp? =
      [(formulas.length, stored)] := by
  rw [told_rollUp (fun _ _ _ => rfl) (fun _ _ => rfl) ok]
  have silent : ((root.visited limit).flatMap fun c =>
      (Event.rolledUp? (.visiting c.key none)).toList) = [] :=
    List.flatMap_eq_nil_iff.mpr fun _ _ => rfl
  rw [silent]
  rfl

/-- It is not for a roll-up to tell of the end of a step. -/
theorem executed_rollUp [Counter κ] {root : Component} {store : Store catalog} {stored : Nat}
    (ok : (rollUp formulas limit traced root store).result = .ok stored) :
    (rollUp formulas limit traced root store).events.filterMap Event.executed? = [] := by
  rw [told_rollUp (fun _ _ _ => rfl) (fun _ _ => rfl) ok]
  exact List.append_eq_nil_iff.mpr ⟨List.flatMap_eq_nil_iff.mpr fun _ _ => rfl, rfl⟩

/-! ## The measures stored -/

theorem tallies_storeOutput (c : Component) (formula : Formula κ) (counter : κ) (key : String) :
    Leads (Tallies [])
      (storeOutput true c formula counter key : Action (Counted (Store catalog)) Unit) := by
  refine Leads.bind_nil (Leads.ofExcept _) fun metric => ?_
  refine Leads.bind_nil (Leads.ofExcept _) fun made => ?_
  cases made with
  | none => exact Leads.pure ()
  | some measure =>
    intro s _ ok
    cases added : s.state.add c.key key measure with
    | error fault =>
      simp [Bind.bind, Action.bind, emitIf, emit, note, uncounted, change, added] at ok
    | ok after =>
      obtain ⟨⟨_, -, named, -⟩, -⟩ := add_eq_ok_iff.mp added
      obtain ⟨metric', value⟩ := measure
      obtain rfl : metric' = key := named
      simp [Bind.bind, Action.bind, emitIf, emit, note, uncounted, change, added, countOne,
        Tallies, Replays, storedBy, Entry.event?, Event.stored?, addAll_cons, add?,
        Except.toOption]
      rfl

/-- A traced roll-up tells of what it stores, measure by measure in the order of storing, and the
number it gives is that of these measures. -/
theorem replays_rollUp [Counter κ] {root : Component} {store : Store catalog} {stored : Nat}
    (ok : (rollUp formulas limit true root store).result = .ok stored) :
    let outcome := rollUp formulas limit true root store
    Replays store outcome.journal outcome.state ∧ stored = (storedBy outcome.journal).length := by
  have enters : ∀ (d : Component) (depth : Nat), Leads (Tallies [d])
      (emit (.visiting d.key (some depth)) : Action (Counted (Store catalog)) Unit) :=
    fun _ _ s _ _ => ⟨rfl, rfl⟩
  obtain ⟨counted, run⟩ := rollUp_of_ok ok
  obtain ⟨replays, tally⟩ :=
    Leads.of_counting (leads_crawl enters tallies_storeOutput root) counted
  have end_silent : storedBy [.event (.formulasExecuted formulas.length stored)] = [] := rfl
  simp only [run, Replays, storedBy_append, end_silent, List.append_nil]
  exact ⟨replays, tally.trans (Nat.zero_add _)⟩

/-! ## Traced and untraced -/

theorem unlogged_storeOutput (traced traced' : Bool) (c : Component) (formula : Formula κ)
    (counter : κ) (key : String) :
    (storeOutput traced c formula counter key : Action (Counted (Store catalog)) Unit).unlogged =
      (storeOutput traced' c formula counter key).unlogged := by
  refine unlogged_bind_congr rfl fun metric => unlogged_bind_congr rfl fun made => ?_
  cases made with
  | none => rfl
  | some measure =>
    refine unlogged_bind_congr ?_ fun _ => rfl
    rw [unlogged_emitIf, unlogged_emitIf]

variable [Counter κ]

theorem unlogged_complete (traced traced' : Bool) (c : Component) (counters : List κ) :
    (complete formulas limit traced c counters :
      Action (Counted (Store catalog)) (List κ)).unlogged =
        (complete formulas limit traced' c counters).unlogged := by
  refine unlogged_bind_congr rfl fun store => unlogged_bind_congr rfl fun fed => ?_
  refine unlogged_bind_congr (unlogged_forM_congr fun pair _ => ?_) fun _ => rfl
  exact unlogged_forM_congr fun key _ => unlogged_storeOutput traced traced' c _ _ key

theorem unlogged_gatherAll {traced traced' : Bool} {cs : List Component}
    (each : ∀ c ∈ cs, ∀ depth, (gather formulas limit traced c depth :
      Action (Counted (Store catalog)) (List κ)).unlogged =
        (gather formulas limit traced' c depth).unlogged) (depth : Nat) (counters : List κ) :
    (gatherAll formulas limit traced cs depth counters :
      Action (Counted (Store catalog)) (List κ)).unlogged =
        (gatherAll formulas limit traced' cs depth counters).unlogged := by
  induction cs generalizing counters with
  | nil => rfl
  | cons c cs ih =>
    have rest := ih fun d mem => each d (List.mem_cons_of_mem _ mem)
    rw [gatherAll, gatherAll]
    by_cases allowed : limit.Allows c.kind
    · rw [if_pos allowed, if_pos allowed]
      refine unlogged_bind_congr (each c List.mem_cons_self depth) fun below => ?_
      exact unlogged_bind_congr rfl fun folded => rest folded
    · rw [if_neg allowed, if_neg allowed]
      exact rest counters

theorem unlogged_gather (traced traced' : Bool) (c : Component) (depth : Nat) :
    (gather formulas limit traced c depth :
      Action (Counted (Store catalog)) (List κ)).unlogged =
        (gather formulas limit traced' c depth).unlogged := by
  induction c generalizing depth with
  | node profile children ih =>
    rw [gather, gather]
    refine unlogged_bind_congr rfl fun _ => unlogged_bind_congr ?_ fun counters => ?_
    · exact unlogged_gatherAll ih _ _
    · exact unlogged_complete traced traced' _ counters

/-- Whether it is traced makes no difference to a roll-up, whether it succeeds or fails. -/
theorem unlogged_rollUp (formulas : List (Formula κ)) (limit : DepthLimit) (traced traced' : Bool)
    (root : Component) :
    (rollUp formulas limit traced root : Action (Store catalog) Nat).unlogged =
      (rollUp formulas limit traced' root).unlogged := by
  refine unlogged_bind_congr (unlogged_counting_congr ?_) fun _ => rfl
  by_cases allowed : limit.Allows root.kind
  · rw [crawl_eq_gather allowed, crawl_eq_gather allowed]
    exact unlogged_bind_congr (unlogged_gather traced traced' root 0) fun _ => rfl
  · rw [PathVisitor.crawl, PathVisitor.crawl,
      if_neg (show ¬ (visitor formulas limit traced).limit.Allows root.kind from allowed),
      if_neg (show ¬ (visitor formulas limit traced').limit.Allows root.kind from allowed)]

/-- The number that a roll-up gives is that of the measures it has added, traced or not. -/
theorem size_rollUp {root : Component} {store : Store catalog} {stored : Nat}
    (ok : (rollUp formulas limit traced root store).result = .ok stored) :
    (rollUp formulas limit traced root store).state.size = store.size + stored := by
  have same : (rollUp formulas limit traced root store).result =
        (rollUp formulas limit true root store).result ∧
      (rollUp formulas limit traced root store).state =
        (rollUp formulas limit true root store).state :=
    Prod.mk.inj (congrFun (unlogged_rollUp formulas limit traced true root) store)
  obtain ⟨result, state⟩ := same
  obtain ⟨replays, number⟩ := replays_rollUp (result.symm.trans ok)
  rw [state, number, size_of_addAll replays]

end Metrology.Formula
