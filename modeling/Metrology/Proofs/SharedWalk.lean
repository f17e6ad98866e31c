import Mathlib.Data.List.FinRange
import Mathlib.Logic.Function.Basic
import Metrology.Crawl.Together
import Metrology.Proofs.RelatedCrawls

/-! # One walk for several visitors

Visitors that share a walk but no state get the calls that each gets in a crawl of its own, in the
same order, up to the first call that fails. The shared walk enters what any of them may see and a
crawl what its one visitor may see; both come to the same because depth limits are closed towards
the root.
-/

namespace Metrology

open Metrology.Action

/-! ## The order of the calls of one visitor -/

namespace Component

/-- The components that a crawl visits, in the order in which it calls on them. -/
def inOrder (order : CrawlOrder) (limit : DepthLimit) (c : Component) : List Component :=
  match order with
  | .preOrder => c.visited limit
  | .postOrder => c.visitedUp limit

/-- The component, if calls on it are made at this time. -/
def ifTime (order time : CrawlOrder) (c : Component) : List Component :=
  if order = time then [c] else []

variable {order : CrawlOrder} {limit : DepthLimit} {c : Component}

theorem inOrder_of_allows (allowed : limit.Allows c.kind) :
    c.inOrder order limit = c.ifTime order .preOrder ++ c.children.flatMap (inOrder order limit) ++
      c.ifTime order .postOrder := by
  cases order with
  | preOrder =>
    rw [inOrder, visited_eq_cons allowed]
    exact (List.append_nil _).symm
  | postOrder =>
    rw [inOrder, visitedUp_eq_append allowed]
    rfl

theorem inOrder_of_not_allows (denied : ¬ limit.Allows c.kind) : c.inOrder order limit = [] := by
  cases order with
  | preOrder => exact visited_eq_nil denied
  | postOrder => exact visitedUp_eq_nil denied

/-- The two calls of a component, the general one first. -/
def callbacks (c : Component) : List (Callback × Component) :=
  [(.any, c), (.ofKind c.kind, c)]

end Component

open Component

namespace Visitor

section Alone

variable {σ : Type} (v : Visitor σ)

theorem dispatch_eq_forM (c : Component) :
    v.dispatch c = forM c.callbacks fun asked => v.call asked.1 asked.2 := by
  rw [callbacks, List.forM_cons, List.forM_cons, List.forM_nil, bind_pure_unit]
  rfl

theorem dispatchAt_eq_forM (time : CrawlOrder) (c : Component) :
    v.dispatchAt time c = forM (c.ifTime v.order time) v.dispatch := by
  rw [dispatchAt, ifTime]
  split
  · rw [List.forM_cons, List.forM_nil, bind_pure_unit]
  · rfl

/-- Beside its journal a crawl does nothing but call on the components it visits. -/
theorem unlogged_crawl (c : Component) :
    (v.crawl c).unlogged = (forM (c.inOrder v.order v.limit) v.dispatch).unlogged := by
  induction c with
  | node profile children ih =>
    rw [crawl]
    by_cases allowed : v.limit.Allows (node profile children).kind
    · have below : (forM children v.crawl).unlogged =
          (forM (children.flatMap (inOrder v.order v.limit)) v.dispatch).unlogged := by
        rw [forM_flatMap_eq, unlogged_forM, unlogged_forM]
        exact forM_congr_of_mem ih
      rw [if_pos allowed, visit, inOrder_of_allows allowed, List.forM_append, List.forM_append,
        dispatchAt_eq_forM, dispatchAt_eq_forM, visitAll_eq_forM_crawl]
      simp only [unlogged_bind, unlogged_emit, pure_bind, below, bind_assoc]
      rfl
    · rw [if_neg allowed, inOrder_of_not_allows allowed, List.forM_nil]

/-- The calls of a crawl that does not fail, in their order. -/
def agenda (c : Component) : List (Callback × Component) :=
  (c.inOrder v.order v.limit).flatMap callbacks

theorem crawl_apply (c : Component) (s : σ) :
    (v.crawl c s).result = (forM (v.agenda c) (fun call => v.call call.1 call.2) s).result ∧
      (v.crawl c s).state = (forM (v.agenda c) (fun call => v.call call.1 call.2) s).state := by
  have calls : forM (v.agenda c) (fun call => v.call call.1 call.2) =
      forM (c.inOrder v.order v.limit) v.dispatch := by
    rw [agenda, forM_flatMap_eq]
    exact forM_congr_of_mem fun d _ => (dispatch_eq_forM v d).symm
  rw [calls]
  exact Prod.mk.inj (congrFun (unlogged_crawl v c) s)

end Alone

end Visitor

/-! ## Several visitors, each with a state of its own -/

/-- A call that one of several visitors got, and what came of it. -/
structure Call (ι : Type) where
  visitor : ι
  callback : Callback
  component : Component
  result : Except Fault Unit

/-- The states of several visitors and the calls they got, in their order. -/
structure Recorded {ι : Type} (σ : ι → Type) where
  states : (i : ι) → σ i
  calls : List (Call ι)

namespace Visitor

variable {ι : Type} {σ : ι → Type} (visitors : (i : ι) → Visitor (σ i))

/-! ## The order of the calls of all visitors -/

/-- The visitors that are called on a component at this time. -/
def turnsAt (indices : List ι) (time : CrawlOrder) (c : Component) : List (ι × Component) :=
  (indices.filter fun i => (visitors i).limit.Allows c.kind ∧ (visitors i).order = time).map
    fun i => (i, c)

mutual

/-- Which visitors are called on which components in a walk that is shared, in this order. -/
def turns (indices : List ι) : Component → List (ι × Component)
  | .node profile children =>
    if ∃ i ∈ indices, (visitors i).limit.Allows profile.role.kind then
      turnsAt visitors indices .preOrder (.node profile children) ++ turnsAll indices children ++
        turnsAt visitors indices .postOrder (.node profile children)
    else []

/-- The turns in walks through several trees. -/
def turnsAll (indices : List ι) : List Component → List (ι × Component)
  | [] => []
  | c :: cs => turns indices c ++ turnsAll indices cs

end

theorem turnsAll_eq_flatMap (indices : List ι) (cs : List Component) :
    turnsAll visitors indices cs = cs.flatMap (turns visitors indices) := by
  induction cs with
  | nil => rfl
  | cons c cs ih => rw [turnsAll, ih, List.flatMap_cons]

variable [DecidableEq ι]

/-- One of several visitors: it acts on its own state among those of all, and its calls are
recorded. -/
def recorded (i : ι) : Visitor (Recorded σ) where
  order := (visitors i).order
  limit := (visitors i).limit
  call callback c s :=
    let outcome := (visitors i).call callback c (s.states i)
    ⟨outcome.result,
      ⟨Function.update s.states i outcome.state,
        s.calls ++ [⟨i, callback, c, outcome.result⟩]⟩,
      outcome.journal⟩

theorem crawlAllTogether_eq_forM {σ : Type} (together : List (Visitor σ)) (cs : List Component) :
    crawlAllTogether together cs = forM cs (crawlTogether together) := by
  induction cs with
  | nil => rfl
  | cons c cs ih => rw [crawlAllTogether, ih, List.forM_cons]

theorem dispatchEach_recorded (indices : List ι) (time : CrawlOrder) (c : Component) :
    dispatchEach (indices.map (recorded visitors)) time c =
      forM (turnsAt visitors indices time c) fun turn =>
        (recorded visitors turn.1).dispatch turn.2 := by
  rw [dispatchEach, List.forM_eq_forM, List.forM_map, turnsAt, List.forM_map]
  induction indices with
  | nil => rfl
  | cons i indices ih =>
    have first : (if (recorded visitors i).limit.Allows c.kind then
          (recorded visitors i).dispatchAt time c else pure ()) =
        if (visitors i).limit.Allows c.kind ∧ (visitors i).order = time then
          (recorded visitors i).dispatch c else pure () := by
      rw [ite_and]
      rfl
    rw [List.forM_cons, ih, List.filter_cons, first]
    by_cases turn : (visitors i).limit.Allows c.kind ∧ (visitors i).order = time
    · rw [if_pos turn, if_pos (decide_eq_true turn), List.forM_cons]
    · rw [if_neg turn, if_neg (by simpa using turn), pure_bind]

theorem crawlTogether_recorded (indices : List ι) (c : Component) :
    crawlTogether (indices.map (recorded visitors)) c =
      forM (turns visitors indices c) fun turn => (recorded visitors turn.1).dispatch turn.2 := by
  induction c with
  | node profile children ih =>
    have wanted : SomeAllows (indices.map (recorded visitors)) profile.role.kind ↔
        ∃ i ∈ indices, (visitors i).limit.Allows profile.role.kind := by
      simp [SomeAllows, recorded]
    rw [crawlTogether, turns]
    by_cases some : ∃ i ∈ indices, (visitors i).limit.Allows profile.role.kind
    · rw [if_pos (wanted.mpr some), if_pos some, List.forM_append, List.forM_append,
        dispatchEach_recorded, dispatchEach_recorded, crawlAllTogether_eq_forM,
        forM_congr_of_mem ih, turnsAll_eq_flatMap, forM_flatMap_eq, bind_assoc]
    · rw [if_neg fun allows => some (wanted.mp allows), if_neg some, List.forM_nil]

section OneOfThem

variable {visitors} {indices : List ι} {i : ι}

theorem filter_turnsAt (nodup : indices.Nodup) (mem : i ∈ indices) (time : CrawlOrder)
    (c : Component) :
    (turnsAt visitors indices time c).filter (fun turn => turn.1 = i) =
      if (visitors i).limit.Allows c.kind then
        (c.ifTime (visitors i).order time).map fun d => (i, d)
      else [] := by
  have only : indices.filter (fun j => j = i) = [i] := by
    have counted : indices.filter (fun j => j == i) = List.replicate (indices.count i) i :=
      List.filter_beq ..
    rw [List.count_eq_one_of_mem nodup mem] at counted
    exact counted
  rw [turnsAt, List.filter_map]
  change List.map _ ((indices.filter _).filter fun j => j = i) = _
  rw [List.filter_comm, only, ifTime]
  by_cases allowed : (visitors i).limit.Allows c.kind <;>
    by_cases now : (visitors i).order = time <;> simp [allowed, now]

/-- Of a shared walk a visitor gets the turns of a crawl of its own. -/
theorem filter_turns (nodup : indices.Nodup) (mem : i ∈ indices) {c : Component}
    (wellFormed : c.WellFormed) :
    (turns visitors indices c).filter (fun turn => turn.1 = i) =
      (c.inOrder (visitors i).order (visitors i).limit).map fun d => (i, d) := by
  induction c with
  | node profile children ih =>
    cases wellFormed with
    | node placed below =>
      have each : ∀ child ∈ children,
          (turns visitors indices child).filter (fun turn => turn.1 = i) =
            (child.inOrder (visitors i).order (visitors i).limit).map fun d => (i, d) :=
        fun child isChild => ih child isChild (below child isChild)
      rw [turns]
      by_cases allowed : (visitors i).limit.Allows (node profile children).kind
      · rw [if_pos ⟨i, mem, allowed⟩, inOrder_of_allows allowed, List.filter_append,
          List.filter_append, filter_turnsAt nodup mem, filter_turnsAt nodup mem, if_pos allowed,
          if_pos allowed, turnsAll_eq_flatMap, List.filter_flatMap, List.map_append,
          List.map_append, List.map_flatMap]
        congr 2
        exact List.flatMap_congr each
      · rw [inOrder_of_not_allows allowed, List.map_nil]
        split
        · -- The walk goes on for others, but below is nothing that this visitor may see.
          have denied : ∀ child ∈ children, ¬ (visitors i).limit.Allows child.kind :=
            fun child isChild entered =>
              allowed (DepthLimit.allows_of_contains (placed child isChild) entered)
          rw [List.filter_append, List.filter_append, filter_turnsAt nodup mem,
            filter_turnsAt nodup mem, if_neg allowed, if_neg allowed, turnsAll_eq_flatMap,
            List.filter_flatMap, List.nil_append, List.append_nil, List.flatMap_eq_nil_iff]
          intro child isChild
          rw [each child isChild, inOrder_of_not_allows (denied child isChild), List.map_nil]
        · rfl

end OneOfThem

/-! ## Calls up to the first that fails -/

/-- The calls of some turns, each turn's general call first. -/
def asked (turns : List (ι × Component)) : List (ι × Callback × Component) :=
  turns.flatMap fun turn => turn.2.callbacks.map fun callback => (turn.1, callback)

/-- Makes a call on one of the visitors. -/
def ask (call : ι × Callback × Component) : Action (Recorded σ) Unit :=
  (recorded visitors call.1).call call.2.1 call.2.2

theorem forM_dispatch_recorded (turns : List (ι × Component)) :
    (forM turns fun turn => (recorded visitors turn.1).dispatch turn.2) =
      forM (asked turns) (ask visitors) := by
  rw [asked, forM_flatMap_eq]
  refine forM_congr_of_mem fun turn _ => ?_
  rw [dispatch_eq_forM, List.forM_map]
  rfl

/-- What comes of the calls, made in a row until one fails. -/
def replay : ((i : ι) → σ i) → List (ι × Callback × Component) → List (Call ι)
  | _, [] => []
  | states, (i, callback, c) :: rest =>
    let outcome := (visitors i).call callback c (states i)
    match outcome.result with
    | .ok () =>
      ⟨i, callback, c, .ok ()⟩ :: replay (Function.update states i outcome.state) rest
    | .error fault => [⟨i, callback, c, .error fault⟩]

variable {visitors} {i : ι} {callback : Callback} {c : Component} {states : (i : ι) → σ i}

theorem replay_cons_of_ok
    (ok : ((visitors i).call callback c (states i)).result = .ok ())
    (rest : List (ι × Callback × Component)) :
    replay visitors states ((i, callback, c) :: rest) =
      ⟨i, callback, c, .ok ()⟩ ::
        replay visitors
          (Function.update states i ((visitors i).call callback c (states i)).state) rest := by
  rw [replay, ok]

theorem replay_cons_of_error {fault : Fault}
    (failed : ((visitors i).call callback c (states i)).result = .error fault)
    (rest : List (ι × Callback × Component)) :
    replay visitors states ((i, callback, c) :: rest) = [⟨i, callback, c, .error fault⟩] := by
  rw [replay, failed]

/-- Calls made in a row are those of the replay, and succeed if none of these fails. -/
theorem forM_ask_apply (calls : List (ι × Callback × Component)) (s : Recorded σ) :
    (forM calls (ask visitors) s).state.calls = s.calls ++ replay visitors s.states calls ∧
      ((forM calls (ask visitors) s).result = .ok () ↔
        ∀ call ∈ replay visitors s.states calls, call.result = .ok ()) := by
  induction calls generalizing s with
  | nil => simp [replay]
  | cons call rest ih =>
    obtain ⟨i, callback, c⟩ := call
    rw [List.forM_cons]
    have own : (ask visitors (i, callback, c) s).result =
      ((visitors i).call callback c (s.states i)).result := rfl
    have logged : (ask visitors (i, callback, c) s).state.calls =
      s.calls ++ [⟨i, callback, c, ((visitors i).call callback c (s.states i)).result⟩] := rfl
    cases result : ((visitors i).call callback c (s.states i)).result with
    | ok a =>
      rw [bind_apply_ok _ (own.trans result), replay_cons_of_ok result]
      obtain ⟨calls, succeeds⟩ := ih (ask visitors (i, callback, c) s).state
      rw [logged, result, List.append_assoc] at calls
      refine ⟨calls, succeeds.trans ?_⟩
      rw [List.forall_mem_cons]
      exact (and_iff_right rfl).symm
    | error fault =>
      rw [bind_apply_error _ (own.trans result), replay_cons_of_error result]
      rw [result] at logged
      exact ⟨logged, by simp⟩

/-- No call follows one that failed. -/
theorem later_eq_nil_of_replay {calls : List (ι × Callback × Component)}
    {earlier later : List (Call ι)} {call : Call ι} {fault : Fault}
    (split : replay visitors states calls = earlier ++ call :: later)
    (failed : call.result = .error fault) : later = [] := by
  induction calls generalizing states earlier with
  | nil => simp [replay] at split
  | cons asked rest ih =>
    obtain ⟨i, callback, c⟩ := asked
    cases result : ((visitors i).call callback c (states i)).result with
    | ok a =>
      rw [replay_cons_of_ok result] at split
      rcases List.cons_eq_append_iff.mp split with ⟨-, here⟩ | ⟨before, -, rest⟩
      · obtain ⟨rfl, -⟩ := List.cons.inj here
        contradiction
      · exact ih rest
    | error fault =>
      rw [replay_cons_of_error result] at split
      rcases List.cons_eq_append_iff.mp split with ⟨-, here⟩ | ⟨before, -, rest⟩
      · exact (List.cons.inj here).2
      · simp at rest

/-- The calls that one of the visitors got. -/
def received (i : ι) (calls : List (Call ι)) : List (Call ι) :=
  calls.filter fun call => call.visitor = i

/-- Of the calls of all visitors one gets what it would get alone, as long as none fails. -/
theorem received_replay {calls : List (ι × Callback × Component)} {states' : (i : ι) → σ i}
    (same : states i = states' i) :
    received i (replay visitors states calls) <+:
        replay visitors states' (calls.filter fun asked => asked.1 = i) ∧
      ((∀ call ∈ replay visitors states calls, call.result = .ok ()) →
        received i (replay visitors states calls) =
          replay visitors states' (calls.filter fun asked => asked.1 = i)) := by
  induction calls generalizing states states' with
  | nil => simp [replay, received]
  | cons asked rest ih =>
    obtain ⟨j, callback, c⟩ := asked
    by_cases own : j = i
    · subst own
      rw [List.filter_cons_of_pos (by simp)]
      cases result : ((visitors j).call callback c (states j)).result with
      | ok a =>
        have result' : ((visitors j).call callback c (states' j)).result = .ok () := same ▸ result
        rw [replay_cons_of_ok result, replay_cons_of_ok result', received,
          List.filter_cons_of_pos (by simp), List.prefix_cons_inj, List.forall_mem_cons]
        have updated : Function.update states j
              ((visitors j).call callback c (states j)).state j =
            Function.update states' j ((visitors j).call callback c (states' j)).state j := by
          rw [Function.update_self, Function.update_self, same]
        obtain ⟨isPrefix, whole⟩ := ih updated
        exact ⟨isPrefix, fun succeed => congrArg _ (whole succeed.2)⟩
      | error fault =>
        have result' : ((visitors j).call callback c (states' j)).result = .error fault :=
          same ▸ result
        rw [replay_cons_of_error result, replay_cons_of_error result', received,
          List.filter_cons_of_pos (by simp)]
        exact ⟨List.prefix_rfl, fun _ => rfl⟩
    · rw [List.filter_cons_of_neg (by simpa using own)]
      cases result : ((visitors j).call callback c (states j)).result with
      | ok a =>
        rw [replay_cons_of_ok result, received, List.filter_cons_of_neg (by simpa using own),
          List.forall_mem_cons]
        have kept : Function.update states j
            ((visitors j).call callback c (states j)).state i = states' i := by
          rw [Function.update_of_ne (Ne.symm own), same]
        obtain ⟨isPrefix, whole⟩ := ih kept
        exact ⟨isPrefix, fun succeed => whole succeed.2⟩
      | error fault =>
        -- Another visitor has failed: this one gets nothing more, whatever it would get alone.
        rw [replay_cons_of_error result, received, List.filter_cons_of_neg (by simpa using own)]
        exact ⟨List.nil_prefix, fun succeed => absurd (succeed _ List.mem_cons_self) (by simp)⟩

/-- No call fails if none fails that one of the visitors gets alone. -/
theorem replay_succeeds_iff {calls : List (ι × Callback × Component)} :
    (∀ call ∈ replay visitors states calls, call.result = .ok ()) ↔
      ∀ i, ∀ call ∈ replay visitors states (calls.filter fun asked => asked.1 = i),
        call.result = .ok () := by
  constructor
  · intro succeed i
    rw [← (received_replay rfl).2 succeed]
    exact fun call mem => succeed call (List.mem_of_mem_filter mem)
  · intro succeed call mem
    have own : call ∈ received call.visitor (replay visitors states calls) :=
      List.mem_filter.mpr ⟨mem, by simp⟩
    exact succeed call.visitor call ((received_replay rfl).1.subset own)

/-! ## Together and alone -/

theorem filter_asked (turns : List (ι × Component)) (i : ι) :
    (asked turns).filter (fun call => call.1 = i) =
      asked (turns.filter fun turn => turn.1 = i) := by
  induction turns with
  | nil => rfl
  | cons turn turns ih =>
    have split : asked (turn :: turns) = (turn.1, .any, turn.2) ::
      (turn.1, .ofKind turn.2.kind, turn.2) :: asked turns := rfl
    by_cases own : turn.1 = i
    · rw [split, List.filter_cons_of_pos (by simpa using own),
        List.filter_cons_of_pos (by simpa using own), List.filter_cons_of_pos (by simpa using own),
        ih]
      rfl
    · rw [split, List.filter_cons_of_neg (by simpa using own),
        List.filter_cons_of_neg (by simpa using own), List.filter_cons_of_neg (by simpa using own),
        ih]

/-- Of a shared walk a visitor gets the calls of a crawl of its own. -/
theorem filter_asked_turns {indices : List ι} (nodup : indices.Nodup) (mem : i ∈ indices)
    {root : Component} (wellFormed : root.WellFormed) :
    (asked (turns visitors indices root)).filter (fun call => call.1 = i) =
      ((visitors i).agenda root).map fun call => (i, call) := by
  rw [filter_asked, filter_turns nodup mem wellFormed, asked, List.flatMap_map, agenda,
    List.map_flatMap]

section Alone

variable (visitors i)

/-- The record does not change how a crawl ends, nor what it does to the state of its visitor. -/
theorem crawl_recorded_agrees (root : Component) (s : Recorded σ) :
    ((recorded visitors i).crawl root s).result =
        ((visitors i).crawl root (s.states i)).result ∧
      ((recorded visitors i).crawl root s).state.states i =
        ((visitors i).crawl root (s.states i)).state := by
  let view (s : Recorded σ) : σ i := s.states i
  have mirrors : Mirrors view ((recorded visitors i).crawl root) ((visitors i).crawl root) :=
    related_crawl (v := recorded visitors i) (w := visitors i) (compatible_mirrors view) rfl rfl
      (fun _ _ _ => ⟨rfl, Function.update_self .., rfl⟩) root
  exact ⟨(mirrors s).1, (mirrors s).2.1⟩

theorem crawl_recorded_apply (root : Component) (s : Recorded σ) :
    ((recorded visitors i).crawl root s).state.calls = s.calls ++
        replay visitors s.states (((visitors i).agenda root).map fun call => (i, call)) ∧
      (((recorded visitors i).crawl root s).result = .ok () ↔
        ∀ call ∈ replay visitors s.states (((visitors i).agenda root).map fun call => (i, call)),
          call.result = .ok ()) := by
  obtain ⟨result, state⟩ := crawl_apply (recorded visitors i) root s
  have run : (forM ((recorded visitors i).agenda root) fun call =>
        (recorded visitors i).call call.1 call.2) =
      forM (((visitors i).agenda root).map fun call => (i, call)) (ask visitors) := by
    rw [List.forM_map]
    rfl
  rw [result, state, run]
  exact forM_ask_apply _ s

end Alone

/-- Visitors that share a walk of a well-formed tree but no state. If no call fails, each gets the
calls that it gets in a crawl of its own. Otherwise each gets a first part of them, and no call
follows the one that fails. The walk succeeds if and only if the crawls of all visitors do. -/
theorem crawlTogether_agrees {n : Nat} {σ : Fin n → Type} (visitors : (i : Fin n) → Visitor (σ i))
    (states : (i : Fin n) → σ i) {root : Component} (wellFormed : root.WellFormed) :
    let walk := crawlTogether (List.ofFn (recorded visitors)) root ⟨states, []⟩
    let alone := fun i => (recorded visitors i).crawl root ⟨states, []⟩
    ((∀ call ∈ walk.state.calls, call.result = .ok ()) →
        ∀ i, received i walk.state.calls = (alone i).state.calls) ∧
      (∀ i, received i walk.state.calls <+: (alone i).state.calls) ∧
      (∀ earlier call later fault, walk.state.calls = earlier ++ call :: later →
        call.result = .error fault → later = []) ∧
      (walk.result = .ok () ↔ ∀ i, ((visitors i).crawl root (states i)).result = .ok ()) := by
  intro walk alone
  let calls := asked (turns visitors (List.finRange n) root)
  have run : walk = forM calls (ask visitors) ⟨states, []⟩ := by
    simp only [walk, List.ofFn_eq_map, crawlTogether_recorded, forM_dispatch_recorded, calls]
  have walkCalls : walk.state.calls = replay visitors states calls :=
    run ▸ (forM_ask_apply calls _).1
  have walkEnds : walk.result = .ok () ↔
      ∀ call ∈ replay visitors states calls, call.result = .ok () :=
    run ▸ (forM_ask_apply calls _).2
  have own (i : Fin n) : calls.filter (fun call => call.1 = i) =
      ((visitors i).agenda root).map fun call => (i, call) :=
    filter_asked_turns (List.nodup_finRange n) (List.mem_finRange i) wellFormed
  have aloneCalls (i : Fin n) : (alone i).state.calls =
      replay visitors states (calls.filter fun call => call.1 = i) := by
    rw [own]
    exact (crawl_recorded_apply visitors i root ⟨states, []⟩).1
  simp only [walkCalls, walkEnds, aloneCalls]
  refine ⟨fun succeed i => (received_replay rfl).2 succeed, fun i => (received_replay rfl).1,
    fun earlier call later fault split failed => later_eq_nil_of_replay split failed, ?_⟩
  refine replay_succeeds_iff.trans (forall_congr' fun i => ?_)
  rw [own, ← (crawl_recorded_agrees visitors i root ⟨states, []⟩).1]
  exact (crawl_recorded_apply visitors i root ⟨states, []⟩).2.symm

end Visitor

namespace WalkWitnesses

def root : Component :=
  .node ⟨"P", none, "P", .project ⟨1, none, none⟩⟩
    [.node ⟨"F", none, "F", .file ⟨2, none, none⟩ {}⟩ []]

theorem wellFormed_root : root.WellFormed := by
  refine .node (by decide) fun child mem => ?_
  obtain rfl := List.mem_singleton.mp mem
  exact .node (by simp) (by simp)

/-- A visitor that counts its calls. -/
def counting (order : CrawlOrder) (limit : DepthLimit) : Visitor Nat where
  order := order
  limit := limit
  call _ _ count := ⟨.ok (), count + 1, []⟩

/-- One goes down to the files, the other stays at the project and comes to it last. -/
def visitors : Fin 2 → Visitor Nat
  | 0 => counting .preOrder .file
  | 1 => counting .postOrder .project

def walk : Outcome (Recorded fun _ : Fin 2 => Nat) Unit :=
  Visitor.crawlTogether (List.ofFn (Visitor.recorded visitors)) root ⟨fun _ => 0, []⟩

theorem crawlTogether_agrees_two :
    root.WellFormed ∧ walk.state.calls.length = 6 ∧
      (∀ call ∈ walk.state.calls, call.result = .ok ()) ∧
      ∀ i, Visitor.received i walk.state.calls =
        ((Visitor.recorded visitors i).crawl root ⟨fun _ => 0, []⟩).state.calls := by
  have succeed : ∀ call ∈ walk.state.calls, call.result = .ok () := by
    intro call mem
    have all : walk.state.calls.all (fun call => call.result matches .ok _) = true := by
      decide +kernel
    have ok := List.all_eq_true.mp all call mem
    split at ok
    · assumption
    · contradiction
  have six : walk.state.calls.length = 6 := by decide +kernel
  exact ⟨wellFormed_root, six, succeed,
    (@Visitor.crawlTogether_agrees 2 (fun _ => Nat) visitors (fun _ => 0) root
      wellFormed_root).1 succeed⟩

end WalkWitnesses

end Metrology
