import Metrology.Proofs.Books
import Metrology.Proofs.Interruptions
import Metrology.Proofs.PathCrawls

/-! # Routes

The crawlers decide step by step how far down they go: at the root, before each child, and once
more where the components are counted. In a tree that was built all of them come to what a filter
over the whole tree leaves. The places on such a route are in document order, and with them it is
settled which calls a crawl makes and what it writes about them.
-/

namespace Metrology

open Metrology.Action Component

variable {σ ε : Type}

/-! ## Places in order -/

/-- The ways from the root part, and the one to the first place goes on further left. -/
def LeftOf (place place' : List Nat) : Prop :=
  ∃ (way : List Nat) (i j : Nat), i < j ∧ way ++ [i] <+: place ∧ way ++ [j] <+: place'

theorem LeftOf.ne {place place' : List Nat} (left : LeftOf place place') : place ≠ place' := by
  rintro rfl
  obtain ⟨way, i, j, less, isPrefix, isPrefix'⟩ := left
  have same : way ++ [i] = way ++ [j] :=
    (List.prefix_of_prefix_length_le isPrefix isPrefix' (by simp)).eq_of_length (by simp)
  exact absurd (List.singleton_inj.mp (List.append_cancel_left same)) (by omega)

/-- In this order the first place comes before the second: it lies to the left, or one lies above
the other. -/
def CrawlOrder.Precedes (order : CrawlOrder) (place place' : List Nat) : Prop :=
  LeftOf place place' ∨ place ≠ place' ∧
    match order with
    | .preOrder => place <+: place'
    | .postOrder => place' <+: place

theorem CrawlOrder.Precedes.ne {order : CrawlOrder} {place place' : List Nat}
    (precedes : order.Precedes place place') : place ≠ place' :=
  precedes.elim LeftOf.ne And.left

namespace Component

mutual

/-- The component that stands at `place` and all components below it, with their places. -/
def placedIn (order : CrawlOrder) (place : List Nat) : Component → List (List Nat × Component)
  | .node profile children =>
    (ifTime order .preOrder (.node profile children)).map (Prod.mk place) ++
      placedAllIn order place 0 children ++
      (ifTime order .postOrder (.node profile children)).map (Prod.mk place)

/-- The children of the component at `place`, from the given position on, and all below them. -/
def placedAllIn (order : CrawlOrder) (place : List Nat) (position : Nat) :
    List Component → List (List Nat × Component)
  | [] => []
  | c :: cs => placedIn order (place ++ [position]) c ++ placedAllIn order place (position + 1) cs

end

variable {order : CrawlOrder} {limit : DepthLimit} {place : List Nat} {c d : Component}

theorem placedAllIn_perm {cs : List Component} (position : Nat)
    (each : ∀ c ∈ cs, ∀ place, (c.placedIn order place).Perm (c.placed place)) :
    (placedAllIn order place position cs).Perm (placedAll place position cs) := by
  induction cs generalizing position with
  | nil => exact .nil
  | cons c cs ih =>
    rw [placedAllIn, placedAll]
    exact (each c List.mem_cons_self _).append
      (ih _ fun d mem => each d (List.mem_cons_of_mem _ mem))

/-- The order does not matter for what is placed where. -/
theorem placedIn_perm (order : CrawlOrder) (place : List Nat) (c : Component) :
    (c.placedIn order place).Perm (c.placed place) := by
  induction c generalizing place with
  | node profile children ih =>
    have below : (placedAllIn order place 0 children).Perm (placedAll place 0 children) :=
      placedAllIn_perm 0 ih
    rw [placedIn, placed]
    cases order with
    | preOrder =>
      rw [ifTime, ifTime, if_pos rfl, if_neg (by decide), List.map_nil, List.append_nil]
      exact below.cons _
    | postOrder =>
      rw [ifTime, ifTime, if_neg (by decide), if_pos rfl, List.map_nil, List.nil_append]
      exact (List.perm_append_singleton _ _).trans (below.cons _)

theorem mem_placedIn_iff {place' : List Nat} :
    (place', d) ∈ c.placedIn order place ↔
      ∃ below, place' = place ++ below ∧ c.follow? below = some d :=
  (placedIn_perm order place c).mem_iff.trans mem_placed_iff

theorem exists_of_mem_placedAllIn {cs : List Component} {position : Nat}
    {entry : List Nat × Component} (mem : entry ∈ placedAllIn order place position cs) :
    ∃ i, place ++ [position + i] <+: entry.1 := by
  have unordered : (placedAllIn order place position cs).Perm (placedAll place position cs) :=
    placedAllIn_perm position fun c _ place => placedIn_perm order place c
  obtain ⟨i, c, -, mem⟩ := mem_placedAll_iff.mp (unordered.mem_iff.mp mem)
  obtain ⟨below, same, -⟩ := mem_placed_iff.mp mem
  exact ⟨i, same ▸ List.prefix_append _ _⟩

theorem pairwise_placedAllIn {cs : List Component} (position : Nat)
    (each : ∀ c ∈ cs, ∀ place,
      (c.placedIn order place).Pairwise fun a b => order.Precedes a.1 b.1) :
    (placedAllIn order place position cs).Pairwise fun a b => order.Precedes a.1 b.1 := by
  induction cs generalizing position with
  | nil => exact .nil
  | cons c cs ih =>
    rw [placedAllIn, List.pairwise_append]
    refine ⟨each c List.mem_cons_self _, ih _ fun d mem => each d (List.mem_cons_of_mem _ mem), ?_⟩
    intro a mem b mem'
    obtain ⟨below, same, -⟩ := mem_placedIn_iff.mp mem
    obtain ⟨i, there⟩ := exists_of_mem_placedAllIn mem'
    exact .inl ⟨place, position, position + 1 + i, by omega,
      same ▸ List.prefix_append _ _, there⟩

/-- The places come one after the other. -/
theorem pairwise_placedIn (order : CrawlOrder) (place : List Nat) (c : Component) :
    (c.placedIn order place).Pairwise fun a b => order.Precedes a.1 b.1 := by
  induction c generalizing place with
  | node profile children ih =>
    have below : (placedAllIn order place 0 children).Pairwise fun a b => order.Precedes a.1 b.1 :=
      pairwise_placedAllIn 0 ih
    have deeper : ∀ entry ∈ placedAllIn order place 0 children,
        place ≠ entry.1 ∧ place <+: entry.1 := by
      intro entry mem
      obtain ⟨i, there⟩ := exists_of_mem_placedAllIn mem
      refine ⟨fun here => ?_, (List.prefix_append _ _).trans there⟩
      exact ne_concat_of_isPrefix (here ▸ there) rfl
    rw [placedIn]
    cases order with
    | preOrder =>
      rw [ifTime, ifTime, if_pos rfl, if_neg (by decide), List.map_nil, List.append_nil]
      exact List.pairwise_cons.mpr ⟨fun entry mem => .inr (deeper entry mem), below⟩
    | postOrder =>
      rw [ifTime, ifTime, if_neg (by decide), if_pos rfl, List.map_nil, List.nil_append]
      refine List.pairwise_append.mpr ⟨below, List.pairwise_singleton _ _, ?_⟩
      rintro entry mem _ isOwn
      obtain rfl := List.mem_singleton.mp isOwn
      exact .inr ⟨(deeper entry mem).1.symm, (deeper entry mem).2⟩

/-! ## The route of a crawl -/

/-- All components within the limit, with their places and in order. -/
def route (order : CrawlOrder) (limit : DepthLimit) (c : Component) : List (List Nat × Component) :=
  (c.placedIn order []).filter fun stop => limit.Allows stop.2.kind

theorem mem_route_iff :
    (place, d) ∈ c.route order limit ↔ c.follow? place = some d ∧ limit.Allows d.kind := by
  simp [route, mem_placedIn_iff]

theorem pairwise_route (order : CrawlOrder) (limit : DepthLimit) (c : Component) :
    ((c.route order limit).map Prod.fst).Pairwise order.Precedes :=
  List.pairwise_map.mpr ((pairwise_placedIn order [] c).filter _)

theorem nodup_route (order : CrawlOrder) (limit : DepthLimit) (c : Component) :
    ((c.route order limit).map Prod.fst).Nodup :=
  (pairwise_route order limit c).imp CrawlOrder.Precedes.ne

theorem map_snd_filter_placedAllIn {cs : List Component} (position : Nat)
    (each : ∀ c ∈ cs, ∀ place, ((c.placedIn order place).filter
      fun stop => limit.Allows stop.2.kind).map Prod.snd = c.inOrder order limit) :
    ((placedAllIn order place position cs).filter
      fun stop => limit.Allows stop.2.kind).map Prod.snd = cs.flatMap (inOrder order limit) := by
  induction cs generalizing position with
  | nil => rfl
  | cons c cs ih =>
    rw [placedAllIn, List.filter_append, List.map_append, each c List.mem_cons_self,
      ih _ fun d mem => each d (List.mem_cons_of_mem _ mem), List.flatMap_cons]

/-- In a well-formed tree nothing within the limit is hidden behind what is beyond it. -/
theorem map_snd_filter_placedIn (order : CrawlOrder) (limit : DepthLimit) (place : List Nat)
    {c : Component} (wellFormed : c.WellFormed) :
    ((c.placedIn order place).filter fun stop => limit.Allows stop.2.kind).map Prod.snd =
      c.inOrder order limit := by
  induction c generalizing place with
  | node profile children ih =>
    by_cases allowed : limit.Allows (node profile children).kind
    · cases wellFormed with
      | node placed below =>
        have own (time : CrawlOrder) :
            (((node profile children).ifTime order time).map (Prod.mk place)).filter
              (fun stop => limit.Allows stop.2.kind) =
            ((node profile children).ifTime order time).map (Prod.mk place) := by
          rw [ifTime]
          split <;> simp [allowed]
        have bare (cs : List Component) : (cs.map (Prod.mk place)).map Prod.snd = cs := by
          simp [Function.comp_def]
        rw [placedIn, List.filter_append, List.filter_append, own, own, List.map_append,
          List.map_append, bare, bare, inOrder_of_allows allowed,
          map_snd_filter_placedAllIn 0 fun child mem place => ih child mem place (below child mem)]
        rfl
    · rw [inOrder_of_not_allows allowed, List.map_eq_nil_iff, List.filter_eq_nil_iff]
      rintro ⟨place', d⟩ mem
      obtain ⟨path, -, leads⟩ := mem_placedIn_iff.mp mem
      simpa using not_allows_of_mem_preorder wellFormed allowed
        (mem_preorder_iff_follow?.mpr ⟨path, leads⟩)

theorem map_snd_route (order : CrawlOrder) (limit : DepthLimit) (wellFormed : c.WellFormed) :
    (c.route order limit).map Prod.snd = c.inOrder order limit :=
  map_snd_filter_placedIn order limit [] wellFormed

theorem map_key_route (limit : DepthLimit) (wellFormed : c.WellFormed) :
    (c.route .preOrder limit).map (fun stop => stop.2.key) = (c.visited limit).map key := by
  have same : c.visited limit = _ := (map_snd_route .preOrder limit wellFormed).symm
  rw [same, List.map_map]
  rfl

theorem flatMap_callbacks_route (order : CrawlOrder) (limit : DepthLimit)
    (wellFormed : c.WellFormed) :
    (c.route order limit).flatMap (fun stop => stop.2.callbacks) =
      (c.inOrder order limit).flatMap callbacks := by
  rw [← map_snd_route order limit wellFormed, List.flatMap_map]

theorem countWithin_eq_length_route (order : CrawlOrder) (limit : DepthLimit)
    (wellFormed : c.WellFormed) : c.countWithin limit = (c.route order limit).length := by
  have visits := congrArg List.length (map_snd_route order limit wellFormed)
  rw [List.length_map] at visits
  rw [visits, countWithin_eq_length]
  cases order with
  | preOrder => rfl
  | postOrder => exact (visitedUp_perm_visited limit c).length_eq.symm

end Component

/-! ## What a crawl writes -/

/-- The journal tells that the components of these keys were entered, in this order, and there are
pieces of which `writes` holds in between. -/
inductive Interspersed (writes : List Entry → Prop) : List String → List Entry → Prop
  | nil : Interspersed writes [] []
  | entering (key : String) (depth : Option Nat) {keys : List String} {journal : List Entry}
      (rest : Interspersed writes keys journal) :
      Interspersed writes (key :: keys) (.event (.visiting key depth) :: journal)
  | writing {written : List Entry} (own : writes written) {keys : List String}
      {journal : List Entry} (rest : Interspersed writes keys journal) :
      Interspersed writes keys (written ++ journal)

/-- None of the pieces tells that a component was entered. -/
def Quiet (writes : List Entry → Prop) : Prop :=
  ∀ written, writes written → (written.filterMap Entry.event?).filterMap Event.entered? = []

namespace Interspersed

variable {writes : List Entry → Prop} {keys keys' : List String} {journal journal' : List Entry}

theorem append (first : Interspersed writes keys journal)
    (second : Interspersed writes keys' journal') :
    Interspersed writes (keys ++ keys') (journal ++ journal') := by
  induction first with
  | nil => exact second
  | entering key depth _ ih => exact .entering key depth ih
  | writing own _ ih => exact List.append_assoc .. ▸ .writing own ih

/-- Between quiet pieces the journal tells of entering just these components. -/
theorem entered (interspersed : Interspersed writes keys journal) (quiet : Quiet writes) :
    (journal.filterMap Entry.event?).filterMap Event.entered? = keys := by
  induction interspersed with
  | nil => rfl
  | entering key depth _ ih => exact congrArg (key :: ·) ih
  | writing own _ ih =>
    rw [List.filterMap_append, List.filterMap_append, quiet _ own, ih, List.nil_append]

end Interspersed

/-- `Interspersed`, as a relation between states that does not look at them. -/
def Intersperses (writes : List Entry → Prop) (keys : List String) (_ : σ) (journal : List Entry)
    (_ : σ) : Prop :=
  Interspersed writes keys journal

instance (writes : List Entry → Prop) : IsItemized (Intersperses (σ := σ) writes) where
  nil _ := .nil
  append first second := Interspersed.append first second

theorem intersperses_emit (writes : List Entry → Prop) (key : String) (depth : Option Nat) :
    Leads (Intersperses writes [key]) (emit (.visiting key depth) : Action σ Unit) :=
  fun _ _ _ => .entering key depth .nil

namespace Visitor

variable (v : Visitor σ)

/-- The visitor may write this when it is called on. -/
def Writes (written : List Entry) : Prop :=
  ∃ callback c s, (v.call callback c s).journal = written

theorem intersperses_dispatchAt (time : CrawlOrder) (c : Component) :
    Leads (Intersperses v.Writes []) (v.dispatchAt time c) := by
  have called (callback : Callback) : Leads (Intersperses v.Writes []) (v.call callback c) := by
    intro s a ok
    have own : v.Writes (v.call callback c s).journal := ⟨callback, c, s, rfl⟩
    have written := Interspersed.writing own .nil
    rwa [List.append_nil] at written
  unfold dispatchAt
  split
  · exact Leads.bind_nil (called .any) fun _ => called _
  · exact Leads.pure ()

/-- A crawl tells of the components it visits, each before those below it, whenever its calls are
made. -/
theorem intersperses_crawl (c : Component) :
    Leads (Intersperses v.Writes ((c.visited v.limit).map key)) (v.crawl c) := by
  induction c with
  | node profile children ih =>
    rw [crawl]
    by_cases allowed : v.limit.Allows (node profile children).kind
    · have below : Leads (Intersperses v.Writes
          (children.flatMap fun child => (child.visited v.limit).map key))
          (v.visitAll children) := by
        rw [visitAll_eq_forM_crawl]
        exact Leads.forM ih
      rw [if_pos allowed, visit, visited_eq_cons allowed, List.map_cons, List.map_flatMap]
      refine Leads.bind (intersperses_emit _ _ none) fun _ => ?_
      refine Leads.bind_nil (v.intersperses_dispatchAt _ _) fun _ => ?_
      exact Leads.bind_last below fun _ => v.intersperses_dispatchAt _ _
    · rw [if_neg allowed, visited_eq_nil allowed]
      exact Leads.pure ()

end Visitor

namespace PathVisitor

variable (v : PathVisitor σ ε)

/-- The visitor may write this when it is called on. -/
def Writes (written : List Entry) : Prop :=
  ∃ callback path s, (v.call callback path s).journal = written

theorem intersperses_enter (c : Component) :
    Leads (Intersperses v.Writes []) (v.enter c) :=
  fun _ _ _ => .nil

theorem intersperses_dispatchAt (time : CrawlOrder) (path : Path ε) :
    Leads (Intersperses v.Writes []) (v.dispatchAt time path) := by
  have stepped (callback : Callback) (path : Path ε) :
      Leads (Intersperses v.Writes []) (v.step callback path) := by
    refine Leads.bind_nil (fun s a ok => ?_) fun ends => Leads.pure (path.withEnds ends)
    have own : v.Writes (v.call callback path s).journal := ⟨callback, path, s, rfl⟩
    have written := Interspersed.writing own .nil
    rwa [List.append_nil] at written
  unfold dispatchAt
  split
  · exact Leads.bind_nil (stepped .any path) fun path => stepped _ path
  · exact Leads.pure path

theorem intersperses_visitAll {cs : List Component}
    (each : ∀ c ∈ cs, ∀ path, v.limit.Allows c.kind →
      Leads (Intersperses v.Writes ((c.visited v.limit).map key)) (v.visit c path))
    (path : Path ε) :
    Leads (Intersperses v.Writes (cs.flatMap fun c => (c.visited v.limit).map key))
      (v.visitAll cs path) := by
  induction cs generalizing path with
  | nil => exact Leads.pure path
  | cons c cs ih =>
    have rest := ih fun d mem => each d (List.mem_cons_of_mem _ mem)
    rw [visitAll, List.flatMap_cons]
    by_cases allowed : v.limit.Allows c.kind
    · rw [if_pos allowed]
      refine Leads.bind_nil (v.intersperses_enter c) fun element => ?_
      exact Leads.bind (each c List.mem_cons_self _ allowed) fun below => rest below.pop
    · rw [if_neg allowed, visited_eq_nil allowed]
      exact rest path

theorem intersperses_visit {c : Component} (path : Path ε) (allowed : v.limit.Allows c.kind) :
    Leads (Intersperses v.Writes ((c.visited v.limit).map key)) (v.visit c path) := by
  induction c generalizing path with
  | node profile children ih =>
    rw [visit, visited_eq_cons allowed, List.map_cons, List.map_flatMap]
    refine Leads.bind (intersperses_emit _ _ _) fun _ => ?_
    refine Leads.bind_nil (v.intersperses_dispatchAt _ path) fun path => ?_
    exact Leads.bind_last (v.intersperses_visitAll ih path)
      fun path => v.intersperses_dispatchAt _ path

theorem intersperses_crawl (root : Component) :
    Leads (Intersperses v.Writes ((root.visited v.limit).map key)) (v.crawl root) := by
  unfold crawl
  by_cases allowed : v.limit.Allows root.kind
  · rw [if_pos allowed]
    refine Leads.bind_nil (v.intersperses_enter root) fun element => ?_
    exact Leads.bind_last (v.intersperses_visit _ allowed) fun _ => Leads.pure ()
  · rw [if_neg allowed, visited_eq_nil allowed]
    exact Leads.pure ()

end PathVisitor

/-! ## What a crawl calls -/

/-- The callback, with the component it was called on. -/
def Call.invocation {ι : Type} (call : Call ι) : Callback × Component :=
  (call.callback, call.component)

/-- The callback, with the component it was called on. -/
def Deed.invocation? : Deed ε → Option (Callback × Component)
  | .created _ _ => none
  | .called callback path _ => some (callback, path.current.component)

theorem Visitor.map_invocation_replay {ι : Type} [DecidableEq ι] {σ : ι → Type}
    {visitors : (i : ι) → Visitor (σ i)} {states : (i : ι) → σ i}
    {calls : List (ι × Callback × Component)}
    (succeed : ∀ call ∈ replay visitors states calls, call.result = .ok ()) :
    (replay visitors states calls).map Call.invocation = calls.map Prod.snd := by
  induction calls generalizing states with
  | nil => rfl
  | cons asked rest ih =>
    obtain ⟨i, callback, c⟩ := asked
    cases result : ((visitors i).call callback c (states i)).result with
    | ok a =>
      rw [replay_cons_of_ok result, List.forall_mem_cons] at succeed
      rw [replay_cons_of_ok result, List.map_cons, List.map_cons, ih succeed.2]
      rfl
    | error fault =>
      rw [replay_cons_of_error result] at succeed
      exact absurd (succeed _ List.mem_cons_self) (by simp)

/-- Where none of its calls fails a crawl makes all of them. -/
theorem Visitor.map_invocation_of_succeed (v : Visitor σ) (root : Component) (s : σ)
    (succeed : ∀ call ∈ (v.observed.crawl root ⟨fun _ => s, []⟩).state.calls,
      call.result = .ok ()) :
    (v.crawl root s).result = .ok () ∧
      (v.observed.crawl root ⟨fun _ => s, []⟩).state.calls.map Call.invocation =
        v.agenda root := by
  obtain ⟨made, succeeds⟩ := crawl_recorded_apply (fun _ : Unit => v) () root ⟨fun _ => s, []⟩
  obtain ⟨result, -⟩ := crawl_recorded_agrees (fun _ : Unit => v) () root ⟨fun _ => s, []⟩
  rw [List.nil_append] at made
  rw [observed, made] at succeed ⊢
  refine ⟨result.symm.trans (succeeds.mpr succeed), ?_⟩
  rw [map_invocation_replay succeed, List.map_map]
  exact List.map_id' _

theorem PathVisitor.filterMap_invocation_of_succeed (v : PathVisitor σ ε) (root : Component) (s : σ)
    (succeed : ∀ deed ∈ (v.observed.crawl root ⟨s, []⟩).state.deeds, deed.fault? = none) :
    (v.crawl root s).result = .ok () ∧
      (v.observed.crawl root ⟨s, []⟩).state.deeds.filterMap Deed.invocation? =
        (root.inOrder v.order v.limit).flatMap callbacks := by
  obtain ⟨log, deeds, -, ends⟩ := v.traces_crawl root ⟨s, []⟩
  obtain ⟨result, -, -⟩ := v.mirrors_crawl root ⟨s, []⟩
  rw [List.nil_append] at deeds
  rw [deeds] at succeed ⊢
  cases ended : (v.observed.crawl root ⟨s, []⟩).result with
  | ok a =>
    rw [ended] at ends
    refine ⟨result.symm.trans ended, ?_⟩
    rw [← calledOn_stops v.order v.limit [] root, ← ends.1, calledOn, List.filterMap_map,
      List.filterMap_map]
    refine List.filterMap_congr fun m _ => ?_
    obtain ⟨place, _ | _⟩ := m <;> rfl
  | error fault =>
    rw [ended] at ends
    obtain ⟨-, rest, m, rfl, failed, -⟩ := ends
    have fine := succeed m.deed (List.mem_map_of_mem (by simp))
    rw [fine] at failed
    contradiction

/-- In a component that was built, the crawls of both kinds follow one route. On it are all
components within the limit, each once, and their places are in order. As long as no call fails
each of them gets its two calls, and in between the journal tells of the same components in
pre-order, whatever the order of the calls. As many components are counted. -/
theorem crawls_follow_route {root : Component} (built : root.Built) (order : CrawlOrder)
    (limit : DepthLimit) :
    let route := root.route order limit
    let keys := (root.route .preOrder limit).map fun stop => stop.2.key
    (∀ place c, (place, c) ∈ route ↔ root.follow? place = some c ∧ limit.Allows c.kind) ∧
    (route.map Prod.fst).Nodup ∧ (route.map Prod.fst).Pairwise order.Precedes ∧
    root.countWithin limit = route.length ∧
    (∀ (σ : Type) (v : Visitor σ) (s : σ), v.order = order → v.limit = limit →
      let crawled := v.observed.crawl root ⟨fun _ => s, []⟩
      (∀ call ∈ crawled.state.calls, call.result = .ok ()) →
        (v.crawl root s).result = .ok () ∧
        crawled.state.calls.map Call.invocation = route.flatMap (fun stop => stop.2.callbacks) ∧
        Interspersed v.Writes keys (v.crawl root s).journal ∧
        (Quiet v.Writes → (v.crawl root s).events.filterMap Event.entered? = keys)) ∧
    ∀ (σ ε : Type) (v : PathVisitor σ ε) (s : σ), v.order = order → v.limit = limit →
      let crawled := v.observed.crawl root ⟨s, []⟩
      (∀ deed ∈ crawled.state.deeds, deed.fault? = none) →
        (v.crawl root s).result = .ok () ∧
        crawled.state.deeds.filterMap Deed.invocation? =
          route.flatMap (fun stop => stop.2.callbacks) ∧
        Interspersed v.Writes keys (v.crawl root s).journal ∧
        (Quiet v.Writes → (v.crawl root s).events.filterMap Event.entered? = keys) := by
  intro route keys
  have wellFormed := built_iff_wellFormed.mp built
  have calls : route.flatMap (fun stop => stop.2.callbacks) = _ :=
    flatMap_callbacks_route order limit wellFormed
  have entered : keys = _ := map_key_route limit wellFormed
  rw [calls, entered]
  refine ⟨fun place c => mem_route_iff, nodup_route order limit root,
    pairwise_route order limit root, countWithin_eq_length_route order limit wellFormed, ?_, ?_⟩
  · rintro σ v s rfl rfl crawled succeed
    obtain ⟨ok, made⟩ := v.map_invocation_of_succeed root s succeed
    have journal : Interspersed _ _ _ := v.intersperses_crawl root s () ok
    exact ⟨ok, made, journal, journal.entered⟩
  · rintro σ ε v s rfl rfl crawled succeed
    obtain ⟨ok, made⟩ := v.filterMap_invocation_of_succeed root s succeed
    have journal : Interspersed _ _ _ := v.intersperses_crawl root s () ok
    exact ⟨ok, made, journal, journal.entered⟩

namespace RouteWitnesses

def inner : Component := .node ⟨"F", none, "F", .file ⟨3, none, none⟩ {}⟩ []

def directory : Component := .node ⟨"D", none, "D", .directory ⟨2, none, none⟩⟩ [inner]

def outer : Component := .node ⟨"G", none, "G", .file ⟨4, none, none⟩ {}⟩ []

def root : Component := .node ⟨"P", none, "P", .project ⟨1, none, none⟩⟩ [directory, outer]

theorem built_root : root.Built := by
  have leaf {child : Component} (bottom : child.children = []) : child.WellFormed := by
    obtain ⟨profile, children⟩ := child
    obtain rfl : children = [] := bottom
    exact .node (by simp) (by simp)
  have below : directory.WellFormed := by
    refine .node (by decide) fun child mem => ?_
    obtain rfl := List.mem_singleton.mp mem
    exact leaf rfl
  refine built_iff_wellFormed.mpr (.node (by decide) fun child mem => ?_)
  obtain rfl | rfl := List.mem_pair.mp mem
  · exact below
  · exact leaf rfl

/-- A visitor that counts its calls on the way back up from the directories. -/
def counter : Visitor Nat where
  order := .postOrder
  limit := .directory
  call _ _ count := ⟨.ok (), count + 1, []⟩

/-- A visitor of paths that does so and remarks on each. -/
def remarker : PathVisitor Nat Nat where
  order := .postOrder
  limit := .directory
  create _ count := (count, count)
  call _ path count := ⟨.ok path.ends, count + 1, [.remark (.int count)]⟩

theorem quiet_remarker : Quiet remarker.Writes := by
  rintro _ ⟨callback, path, count, rfl⟩
  rfl

theorem quiet_counter : Quiet counter.Writes := by
  rintro _ ⟨callback, c, count, rfl⟩
  rfl

/-- The directory comes before the project, and the files are left out. -/
theorem crawls_follow_route_upward :
    root.Built ∧ root.countWithin .directory = 2 ∧
    ((root.route .postOrder .directory).map fun stop => (stop.1, stop.2.key)) =
      [([0], "D"), ([], "P")] ∧
    (counter.observed.crawl root ⟨fun _ => 0, []⟩).state.calls.map Call.invocation =
      [(.any, directory), (.ofKind .directory, directory), (.any, root),
        (.ofKind .project, root)] ∧
    (counter.crawl root 0).events.filterMap Event.entered? = ["P", "D"] ∧
    (remarker.observed.crawl root ⟨0, []⟩).state.deeds.filterMap Deed.invocation? =
      [(.any, directory), (.ofKind .directory, directory), (.any, root),
        (.ofKind .project, root)] ∧
    (remarker.crawl root 0).events.filterMap Event.entered? = ["P", "D"] := by
  obtain ⟨-, -, -, counted, components, paths⟩ :=
    crawls_follow_route built_root .postOrder .directory
  have calls : ∀ call ∈ (counter.observed.crawl root ⟨fun _ => 0, []⟩).state.calls,
      call.result = .ok () := by decide +kernel
  have deeds : ∀ deed ∈ (remarker.observed.crawl root ⟨0, []⟩).state.deeds,
      deed.fault? = none := by decide +kernel
  obtain ⟨-, made, -, entered⟩ := components Nat counter 0 rfl rfl calls
  obtain ⟨-, made', -, entered'⟩ := paths Nat Nat remarker 0 rfl rfl deeds
  exact ⟨built_root, counted, by decide +kernel, made, entered quiet_counter, made',
    entered' quiet_remarker⟩

end RouteWitnesses

end Metrology
