import Metrology.Proofs.Paths

/-! # Crawls along paths

At every call of a crawl the path is the chain of components from the root to the one that is
visited, and every component on it has the element it was given when the crawl entered it, as
changed by the calls since. A visitor that adds elements to those of the parents on the way back up
so folds the tree.
-/

namespace Metrology

open Metrology.Action Component

variable {σ ε α β : Type}

namespace Path

theorem tail_above_withEnds (path : Path ε) (ends : Ends ε) :
    (path.withEnds ends).above.tail = path.above.tail := by
  obtain ⟨current, stations⟩ := path
  obtain ⟨element, parent⟩ := ends
  cases stations <;> cases parent <;> rfl

@[simp]
theorem withEnds_ends (path : Path ε) : path.withEnds path.ends = path := by
  obtain ⟨current, stations⟩ := path
  cases stations <;> rfl

@[simp]
theorem parent?_withEnds_map (path : Path ε) (element : ε) (g : ε → ε) :
    (path.withEnds ⟨element, path.parent?.map g⟩).parent? = path.parent?.map g := by
  obtain ⟨current, stations⟩ := path
  cases stations <;> rfl

end Path

namespace PathVisitor

/-! ## Folding on the way back up -/

/-- On the way back up the visitor combines, by `f`, the element with which it leaves a component
into that of the parent. It may change its own element before. -/
structure Folds (v : PathVisitor σ ε) (f : ε → ε → ε) : Prop where
  postOrder : v.order = .postOrder
  combines : ∀ {path path' : Path ε} {s : σ}, (v.dispatch path s).result = .ok path' →
    path'.parent? = path.parent?.map fun parent => f parent path'.element

/-- The elements which the children of the component at `place` have after some moments, from the
given position on. Those that are too deep are left out. -/
def childrenAfter (log : List (Moment ε)) (limit : DepthLimit) (place : List Nat) (position : Nat)
    (cs : List Component) : List (Option ε) :=
  ((cs.zipIdx position).filter fun child => limit.Allows child.1.kind).map fun child =>
    elementsAfter log (place ++ [child.2])

/-- At the end of the path is the element that was created for the component, into which `f` has
combined those of its children as they are after the moments of the log, from the first child to the
last. -/
def Combined (f : ε → ε → ε) (limit : DepthLimit) (log : List (Moment ε)) (place : List Nat)
    (path : Path ε) : Prop :=
  ∃ (created : ε) (finals : List ε), ⟨place, .created path.current.component created⟩ ∈ log ∧
    childrenAfter log limit place 0 path.current.component.children = finals.map some ∧
    path.element = finals.foldl f created

section Children

variable {limit : DepthLimit} {place : List Nat} {position : Nat} {c : Component}
  {cs : List Component}

theorem childrenAfter_cons_of_allows (log : List (Moment ε)) (allowed : limit.Allows c.kind) :
    childrenAfter log limit place position (c :: cs) =
      elementsAfter log (place ++ [position]) ::
        childrenAfter log limit place (position + 1) cs := by
  rw [childrenAfter, List.zipIdx_cons, List.filter_cons_of_pos (by simpa using allowed)]
  rfl

theorem childrenAfter_cons_of_not_allows (log : List (Moment ε)) (denied : ¬ limit.Allows c.kind) :
    childrenAfter log limit place position (c :: cs) =
      childrenAfter log limit place (position + 1) cs := by
  rw [childrenAfter, List.zipIdx_cons, List.filter_cons_of_neg (by simpa using denied)]
  rfl

/-- Stops at the later children of a component leave the element of an earlier one. -/
theorem elementsAfter_append_stopsAll {order : CrawlOrder} {log more : List (Moment ε)}
    (made : more.map Moment.stop = stopsAll order limit place (position + 1) cs) :
    elementsAfter (log ++ more) (place ++ [position]) =
      elementsAfter log (place ++ [position]) := by
  refine elementsAfter_append_of_not_isPrefix log fun m mem within => ?_
  have stop : m.stop ∈ stopsAll order limit place (position + 1) cs :=
    made ▸ List.mem_map_of_mem mem
  obtain ⟨i, later, within'⟩ := exists_position_of_mem_stopsAll stop
  have same := eq_of_isPrefix_concat within within'
  omega

/-- The elements below a component that is called on stay as they are, where calls come after those
on all components below. -/
theorem childrenAfter_of_closes {earlier later : List (Moment ε)} {called : Moment ε}
    (isCall : called.deed.callback? ≠ none)
    (closes : ((earlier ++ called :: later).map Moment.stop).Pairwise Stop.Closes) :
    childrenAfter (earlier ++ called :: later) limit called.place 0 cs =
      childrenAfter earlier limit called.place 0 cs := by
  refine List.map_congr_left fun child _ => ?_
  refine elementsAfter_append_of_not_isPrefix earlier fun m mem within => ?_
  rw [List.map_append, List.pairwise_append, List.map_cons, List.pairwise_cons] at closes
  rcases List.mem_cons.mp mem with rfl | after
  · have shorter := within.length_le
    rw [List.length_append, List.length_singleton] at shorter
    omega
  · exact closes.2.1.1 m.stop (List.mem_map_of_mem after) isCall child.2 within

end Children

/-- What holds of the path when the visitor is called at a place after some moments. -/
structure Sees (v : PathVisitor σ ε) (root : Component) (earlier : List (Moment ε))
    (place : List Nat) (callback : Callback) (path : Path ε) : Prop where
  stands : Stands root (elementsAfter earlier) place path
  combined : callback = .any → ∀ f, v.Folds f → Combined f v.limit earlier place path
  resumed : callback ≠ .any → ∃ rest first ends,
    earlier = rest ++ [⟨place, .called .any first (.ok ends)⟩] ∧ path = first.withEnds ends

/-! ## Traces -/

/-- Moments of a crawl of `root` that follow one another after those of `before`, and lead from the
first state to the last. At each call the path is as it should be. -/
inductive Trace (v : PathVisitor σ ε) (root : Component) :
    List (Moment ε) → σ → List (Moment ε) → σ → Prop
  | nil (before : List (Moment ε)) (s : σ) : Trace v root before s [] s
  | cons {before log : List (Moment ε)} {m : Moment ε} {s t u : σ} (leads : m.deed.Leads v s t)
      (sees : ∀ callback path left, m.deed = .called callback path left →
        v.Sees root before m.place callback path)
      (rest : Trace v root (before ++ [m]) t log u) : Trace v root before s (m :: log) u

namespace Trace

variable {v : PathVisitor σ ε} {root : Component} {before : List (Moment ε)}

theorem append {log more : List (Moment ε)} {s t u : σ} (first : Trace v root before s log t)
    (second : Trace v root (before ++ log) t more u) : Trace v root before s (log ++ more) u := by
  induction first with
  | nil before s => simpa using second
  | cons leads sees _ ih => exact .cons leads sees (ih (by simpa using second))

theorem split {log more : List (Moment ε)} {s u : σ}
    (trace : Trace v root before s (log ++ more) u) :
    ∃ t, Trace v root before s log t ∧ Trace v root (before ++ log) t more u := by
  induction log generalizing before s with
  | nil => exact ⟨s, .nil before s, by simpa using trace⟩
  | cons m log ih =>
    cases trace with
    | cons leads sees rest =>
      obtain ⟨t, first, second⟩ := ih rest
      exact ⟨t, .cons leads sees first, by simpa using second⟩

theorem sees {log later : List (Moment ε)} {s u : σ} (trace : Trace v root before s log u)
    {earlier : List (Moment ε)} {place : List Nat} {callback : Callback} {path : Path ε}
    {left : Except Fault (Ends ε)}
    (split : log = earlier ++ ⟨place, .called callback path left⟩ :: later) :
    v.Sees root (before ++ earlier) place callback path := by
  induction trace generalizing earlier with
  | nil before s => simp at split
  | cons leads sees _ ih =>
    rcases List.cons_eq_append_iff.mp split with ⟨rfl, here⟩ | ⟨rest, rfl, there⟩
    · obtain ⟨rfl, -⟩ := List.cons.inj here
      simpa using sees _ _ _ rfl
    · simpa using ih there

end Trace

/-- How a part of a crawl ends that should make the given stops: after all of them, with a result of
which `post` holds, or with a fault at the last of those it has made. -/
def Ending (stops : List Stop) (post : α → Prop) (log : List (Moment ε)) :
    Except Fault α → Prop
  | .ok a => log.map Moment.stop = stops ∧ (∀ m ∈ log, m.deed.fault? = none) ∧ post a
  | .error fault => log.map Moment.stop <+: stops ∧
    ∃ rest m, log = rest ++ [m] ∧ m.deed.fault? = some fault ∧ ∀ m ∈ rest, m.deed.fault? = none

/-- The action is a part of a crawl that comes after the moments `before` and should make the given
stops. Where it succeeds, `post` holds of its result and of all moments then. -/
def Traces (v : PathVisitor σ ε) (root : Component) (before : List (Moment ε)) (stops : List Stop)
    (post : α → List (Moment ε) → Prop) (x : Action (Observed σ ε) α) : Prop :=
  ∀ s, ∃ log, (x s).state.deeds = s.deeds ++ log.map Moment.deed ∧
    Trace v root before s.state log (x s).state.state ∧
    Ending stops (fun a => post a (before ++ log)) log (x s).result

namespace Traces

variable {v : PathVisitor σ ε} {root : Component} {before : List (Moment ε)}
  {stops more : List Stop} {post : α → List (Moment ε) → Prop}
  {post' : β → List (Moment ε) → Prop} {x : Action (Observed σ ε) α}
  {f : α → Action (Observed σ ε) β}

theorem pure {a : α} (holds : post a before) :
    Traces v root before [] post (Pure.pure a : Action (Observed σ ε) α) :=
  fun s => ⟨[], by simp, .nil before s.state, rfl, by simp, by simpa using holds⟩

theorem bind (first : Traces v root before stops post x)
    (next : ∀ a log, post a (before ++ log) → Traces v root (before ++ log) more post' (f a)) :
    Traces v root before (stops ++ more) post' (x >>= f) := by
  intro s
  obtain ⟨log, deeds, trace, ends⟩ := first s
  cases result : (x s).result with
  | error fault =>
    rw [result] at ends
    obtain ⟨made, last⟩ := ends
    rw [bind_apply_error f result]
    exact ⟨log, deeds, trace, made.trans (List.prefix_append _ _), last⟩
  | ok a =>
    rw [result] at ends
    obtain ⟨made, fine, holds⟩ := ends
    obtain ⟨log', deeds', trace', ends'⟩ := next a log holds (x s).state
    rw [bind_apply_ok f result]
    refine ⟨log ++ log', ?_, trace.append trace', ?_⟩
    · rw [deeds', deeds, List.map_append, List.append_assoc]
    · cases result' : (f a (x s).state).result with
      | ok b =>
        rw [result'] at ends'
        obtain ⟨made', fine', holds'⟩ := ends'
        refine ⟨by rw [List.map_append, made, made'], ?_, by rwa [← List.append_assoc]⟩
        simpa [or_imp, forall_and] using ⟨fine, fine'⟩
      | error fault =>
        rw [result'] at ends'
        obtain ⟨made', rest, m, rfl, failed, fine'⟩ := ends'
        refine ⟨?_, log ++ rest, m, by rw [List.append_assoc], failed, ?_⟩
        · rw [List.map_append, made]
          exact (List.prefix_append_right_inj _).mpr made'
        · simpa [or_imp, forall_and] using ⟨fine, fine'⟩

theorem weaken {post' : α → List (Moment ε) → Prop} (traces : Traces v root before stops post x)
    (weaker : ∀ a log s, (x s).result = .ok a → log.map Moment.stop = stops →
      post a (before ++ log) → post' a (before ++ log)) :
    Traces v root before stops post' x := by
  intro s
  obtain ⟨log, deeds, trace, ends⟩ := traces s
  refine ⟨log, deeds, trace, ?_⟩
  cases result : (x s).result with
  | ok a =>
    rw [result] at ends
    exact ⟨ends.1, ends.2.1, weaker a log s result ends.1 ends.2.2⟩
  | error fault =>
    rw [result] at ends
    exact ends

/-- What only writes the journal is no stop. -/
theorem emit_bind {event : Event} {y : Action (Observed σ ε) α}
    (traces : Traces v root before stops post y) :
    Traces v root before stops post (Action.emit event >>= fun _ => y) :=
  traces

theorem enter {place : List Nat} {c : Component} :
    Traces v root before [entrance place c]
      (fun element log => log = before ++ [⟨place, .created c element⟩])
      (v.observed.enter c) := by
  intro s
  refine ⟨[⟨place, .created c (v.create c s.state).1⟩], rfl, ?_, rfl, ?_, rfl⟩
  · exact .cons (t := (v.create c s.state).2) rfl (fun _ _ _ other => by contradiction) (.nil _ _)
  · simp [Deed.fault?]

theorem step {place : List Nat} {callback : Callback} {path : Path ε}
    (sees : v.Sees root before place callback path) :
    Traces v root before [⟨place, path.current.component, some callback⟩]
      (fun path' log => ∃ ends s, (v.call callback path s).result = .ok ends ∧
        path' = path.withEnds ends ∧
        log = before ++ [⟨place, .called callback path (.ok ends)⟩])
      (v.observed.step callback path) := by
  intro s
  let outcome := v.call callback path s.state
  have trace : Trace v root before s.state [⟨place, .called callback path outcome.result⟩]
      outcome.state := by
    refine .cons ⟨rfl, rfl⟩ (fun _ _ _ same => ?_) (.nil _ _)
    obtain ⟨rfl, rfl, rfl⟩ := Deed.called.inj same
    exact sees
  refine ⟨[⟨place, .called callback path outcome.result⟩], ?_⟩
  cases result : outcome.result with
  | ok ends =>
    have called : (v.observed.call callback path s).result = .ok ends := result
    rw [result] at trace
    rw [PathVisitor.step, bind_apply_ok _ called]
    refine ⟨by rw [← result]; rfl, trace, rfl, by simp [Deed.fault?], ?_⟩
    exact ⟨ends, s.state, result, rfl, rfl⟩
  | error fault =>
    have called : (v.observed.call callback path s).result = .error fault := result
    rw [result] at trace
    rw [PathVisitor.step, bind_apply_error _ called]
    exact ⟨by rw [← result]; rfl, trace, List.prefix_rfl, [], _, rfl, rfl, by simp⟩

end Traces

section Calls

variable {v : PathVisitor σ ε} {root : Component} {before : List (Moment ε)} {place : List Nat}
  {path : Path ε}

/-- The second call at a place sees what the first one has left there. -/
theorem Sees.resume {ends : Ends ε} (sees : v.Sees root before place .any path)
    (kind : ComponentKind) :
    v.Sees root (before ++ [⟨place, .called .any path (.ok ends)⟩]) place (.ofKind kind)
      (path.withEnds ends) where
  stands := by
    rw [elementsAfter_concat]
    exact sees.stands.withEnds .any ends
  combined other := by contradiction
  resumed _ := ⟨before, path, ends, rfl, rfl⟩

/-- Both calls at a place change no more than the elements at the end of the path. -/
theorem traces_dispatch (sees : v.Sees root before place .any path) :
    Traces v root before
      [⟨place, path.current.component, some .any⟩,
        ⟨place, path.current.component, some (.ofKind path.current.component.kind)⟩]
      (fun path' log => Stands root (elementsAfter log) place path' ∧
        path'.above.tail = path.above.tail ∧ ∃ s, (v.dispatch path s).result = .ok path')
      (v.observed.dispatch path) := by
  have calls : Traces v root before
      ([⟨place, path.current.component, some .any⟩] ++
        [⟨place, path.current.component, some (.ofKind path.current.component.kind)⟩])
      (fun path' log => Stands root (elementsAfter log) place path' ∧
        path'.above.tail = path.above.tail) (v.observed.dispatch path) := by
    refine (Traces.step sees).bind ?_
    rintro _ log ⟨ends, -, -, rfl, log_eq⟩
    rw [log_eq]
    refine (Traces.step (sees.resume _)).weaken ?_
    rintro path₂ more - - - ⟨ends', -, -, rfl, log_eq'⟩
    rw [log_eq', elementsAfter_concat]
    refine ⟨(sees.resume path.current.component.kind).stands.withEnds _ ends', ?_⟩
    rw [Path.tail_above_withEnds, Path.tail_above_withEnds]
  refine calls.weaken fun path' log s result _ holds => ⟨holds.1, holds.2, s.state, ?_⟩
  rw [← (v.mirrors_dispatch path s).1, result]

/-- The calls at a place, if it is the time for them. -/
theorem traces_dispatchAt {time : CrawlOrder} {c : Component}
    (isCurrent : path.current.component = c)
    (stands : Stands root (elementsAfter before) place path)
    (sees : v.order = time → v.Sees root before place .any path) :
    Traces v root before (c.callsAt v.order time place)
      (fun path' log => Stands root (elementsAfter log) place path' ∧
        path'.above.tail = path.above.tail ∧
        (v.order = time → ∃ s, (v.dispatch path s).result = .ok path') ∧
        (v.order ≠ time → path' = path))
      (v.observed.dispatchAt time path) := by
  subst isCurrent
  unfold callsAt dispatchAt
  by_cases now : v.order = time
  · rw [if_pos now, if_pos (show v.observed.order = time from now)]
    refine (traces_dispatch (sees now)).weaken fun path' log _ _ _ holds => ?_
    exact ⟨holds.1, holds.2.1, fun _ => holds.2.2, fun other => absurd now other⟩
  · rw [if_neg now, if_neg (show ¬ v.observed.order = time from now)]
    exact .pure ⟨stands, rfl, fun now' => absurd now' now, fun _ => rfl⟩

end Calls

/-! ## Visits -/

section Visits

variable {v : PathVisitor σ ε} {root : Component}

/-- What a visit of a component does to the path that leads to it. -/
structure Returns (v : PathVisitor σ ε) (root : Component) (place : List Nat)
    (path path' : Path ε) (log : List (Moment ε)) : Prop where
  stands : Stands root (elementsAfter log) place path'
  tail_eq : path'.above.tail = path.above.tail
  combined : ∀ f, v.Folds f →
    path'.parent? = path.parent?.map fun parent => f parent path'.element

/-- What visits of children do to the path that leads to their parent. -/
structure ReturnsAll (v : PathVisitor σ ε) (root : Component) (place : List Nat) (position : Nat)
    (cs : List Component) (path path' : Path ε) (log : List (Moment ε)) : Prop where
  stands : Stands root (elementsAfter log) place path'
  above_eq : path'.above = path.above
  combined : ∀ f, v.Folds f → ∃ finals : List ε,
    childrenAfter log v.limit place position cs = finals.map some ∧
      path'.element = finals.foldl f path.element

/-- The stops of a visit, once the component is entered. -/
def stopsWithin (order : CrawlOrder) (limit : DepthLimit) (place : List Nat) (c : Component) :
    List Stop :=
  c.callsAt order .preOrder place ++ stopsAll order limit place 0 c.children ++
    c.callsAt order .postOrder place

theorem stops_eq_entrance_append {order : CrawlOrder} {limit : DepthLimit} {place : List Nat}
    {c : Component} (allowed : limit.Allows c.kind) :
    c.stops order limit place = [entrance place c] ++ stopsWithin order limit place c :=
  stops_of_allows allowed

/-- A visit of a component that has just been entered makes its stops. -/
def VisitTraces (v : PathVisitor σ ε) (root c : Component) : Prop :=
  ∀ {before : List (Moment ε)} {place : List Nat} {path : Path ε},
    path.current.component = c → Stands root (elementsAfter before) place path →
    ⟨place, .created c path.element⟩ ∈ before →
    Traces v root before (stopsWithin v.order v.limit place c)
      (v.Returns root place path) (v.observed.visit c path)

/-- The path after the visit of a child, one step back up. -/
theorem Returns.pop {place : List Nat} {position : Nat} {c : Component} {path below : Path ε}
    {element : ε} {log : List (Moment ε)}
    (returns : v.Returns root (place ++ [position]) (path.push c element) below log) :
    Stands root (elementsAfter log) place below.pop ∧ below.pop.above = path.above ∧
      ∀ f, v.Folds f → below.pop.element = f path.element below.element := by
  obtain ⟨stands, tail, combined⟩ := returns
  have deep := stands.depth
  obtain ⟨current, stations⟩ := below
  cases stations with
  | nil => simp [Path.depth] at deep
  | cons parent stations =>
    exact ⟨stands.pop, tail, fun f folds => Option.some.inj (combined f folds)⟩

theorem traces_visitAll {cs : List Component} (each : ∀ c ∈ cs, VisitTraces v root c)
    {before : List (Moment ε)} {place : List Nat} {path : Path ε} {position : Nat}
    (children : path.current.component.children.drop position = cs)
    (stands : Stands root (elementsAfter before) place path) :
    Traces v root before (stopsAll v.order v.limit place position cs)
      (v.ReturnsAll root place position cs path) (v.observed.visitAll cs path) := by
  induction cs generalizing before path position with
  | nil => exact .pure ⟨stands, rfl, fun _ _ => ⟨[], rfl, rfl⟩⟩
  | cons c cs ih =>
    have isChild : path.current.component.children[position]? = some c := by
      rw [← Nat.add_zero position, ← List.getElem?_drop, children]
      rfl
    have others : path.current.component.children.drop (position + 1) = cs := by
      rw [← List.tail_drop, children]
      rfl
    have rest {before : List (Moment ε)} {path' : Path ε}
        (stands' : Stands root (elementsAfter before) place path') :
        Traces v root before (stopsAll v.order v.limit place (position + 1) cs)
          (v.ReturnsAll root place (position + 1) cs path') (v.observed.visitAll cs path') :=
      ih (fun d mem => each d (List.mem_cons_of_mem _ mem))
        (by rw [stands.component_eq stands', others]) stands'
    rw [visitAll, stopsAll]
    by_cases allowed : v.limit.Allows c.kind
    · rw [if_pos (show v.observed.limit.Allows c.kind from allowed),
        stops_eq_entrance_append allowed, List.append_assoc]
      refine Traces.enter.bind fun element log log_eq => ?_
      rw [log_eq]
      have visit := each c List.mem_cons_self rfl (stands.enter isChild element)
        (List.mem_append_right _ List.mem_cons_self)
      refine visit.bind fun below log' returns => ?_
      -- Of the path that comes back from the child only the element at its end may be another.
      obtain ⟨back, above, combined⟩ := returns.pop
      refine (rest back).weaken ?_
      rintro path' more - - made ⟨stands', above', folded⟩
      refine ⟨stands', above'.trans above, fun f folds => ?_⟩
      obtain ⟨finals, finals_eq, element_eq⟩ := folded f folds
      -- The child keeps the element it was left with, while its later siblings are visited.
      refine ⟨below.element :: finals, ?_, ?_⟩
      · rw [childrenAfter_cons_of_allows _ allowed, elementsAfter_append_stopsAll made,
          returns.stands.element, finals_eq]
        rfl
      · rw [element_eq, combined f folds]
        rfl
    · rw [if_neg (show ¬ v.observed.limit.Allows c.kind from allowed), stops_of_not_allows allowed]
      refine (rest stands).weaken ?_
      rintro path' log - - - ⟨stands', above, folded⟩
      refine ⟨stands', above, fun f folds => ?_⟩
      rw [childrenAfter_cons_of_not_allows _ allowed]
      exact folded f folds

theorem traces_visit (c : Component) : VisitTraces v root c := by
  induction c with
  | node profile children ih =>
    intro before place path isCurrent stands entered
    rw [visit]
    refine .emit_bind ?_
    have pre : v.order = .preOrder → v.Sees root before place .any path := fun pre =>
      ⟨stands, fun _ f folds => absurd (pre.symm.trans folds.postOrder) (by decide), absurd rfl⟩
    unfold stopsWithin
    rw [List.append_assoc]
    refine (traces_dispatchAt isCurrent stands pre).bind ?_
    rintro path₁ log₁ ⟨stands₁, tail₁, -, same⟩
    have all : path₁.current.component.children.drop 0 = children := by
      rw [stands.component_eq stands₁, isCurrent]
      rfl
    refine (traces_visitAll ih all stands₁).bind ?_
    rintro path₂ log₂ ⟨stands₂, above, folded⟩
    have isCurrent₂ : path₂.current.component = .node profile children :=
      (stands.component_eq stands₂).trans isCurrent
    have unchanged {f : ε → ε → ε} (folds : v.Folds f) : path₁ = path :=
      same (by rw [folds.postOrder]; decide)
    -- Before the calls of a fold nothing but the children has changed the element.
    have post : v.Sees root (before ++ log₁ ++ log₂) place .any path₂ := by
      refine ⟨stands₂, fun _ f folds => ?_, absurd rfl⟩
      obtain ⟨finals, finals_eq, element_eq⟩ := folded f folds
      rw [unchanged folds] at element_eq
      refine ⟨path.element, finals, ?_, by rw [isCurrent₂]; exact finals_eq, element_eq⟩
      rw [isCurrent₂]
      exact List.mem_append_left _ (List.mem_append_left _ entered)
    refine (traces_dispatchAt isCurrent₂ stands₂ fun _ => post).weaken ?_
    rintro path₃ log₃ - - - ⟨stands₃, tail₃, calls, -⟩
    refine ⟨stands₃, by rw [tail₃, above, tail₁], fun f folds => ?_⟩
    obtain ⟨s, called⟩ := calls folds.postOrder
    rw [folds.combines called, Path.parent?, above, unchanged folds]
    rfl

end Visits

/-! ## Crawls -/

/-- A crawl makes the stops of its itinerary. -/
theorem traces_crawl (v : PathVisitor σ ε) (root : Component) :
    Traces v root [] (root.stops v.order v.limit []) (fun _ _ => True) (v.observed.crawl root) := by
  unfold crawl
  by_cases allowed : v.limit.Allows root.kind
  · rw [if_pos (show v.observed.limit.Allows root.kind from allowed),
      stops_eq_entrance_append allowed, ← List.append_nil (stopsWithin _ _ _ _)]
    refine Traces.enter.bind fun element log log_eq => ?_
    rw [log_eq]
    have stands : Stands root (elementsAfter ([] ++ [⟨[], .created root element⟩])) []
      (.start root element) := .start rfl
    exact (traces_visit root rfl stands List.mem_cons_self).bind fun _ _ _ => .pure trivial
  · rw [if_neg (show ¬ v.observed.limit.Allows root.kind from allowed), stops_of_not_allows allowed]
    exact .pure trivial

/-- What the path says when the visitor is called at a place after some moments of a crawl. -/
structure Tells (root : Component) (earlier : List (Moment ε)) (place : List Nat)
    (path : Path ε) : Prop where
  /-- The components are those on the way from the root to the place. -/
  components_eq : path.components.map some = place.inits.map root.follow?
  /-- All of them have been entered. -/
  entered : ∀ upper, upper <+: place →
    ∃ c element, root.follow? upper = some c ∧ ⟨upper, .created c element⟩ ∈ earlier
  depth_eq : path.depth = place.length
  isRoot_iff : path.isRoot = true ↔ place = []
  /-- The elements are those of the places, with all changes made to them so far. -/
  element_eq : some path.element = elementsAfter earlier place
  parent_eq : path.parent? = if place = [] then none else elementsAfter earlier place.dropLast
  root_eq : some path.root = elementsAfter earlier []

theorem entered_map_stop (log : List (Moment ε)) :
    entered (log.map Moment.stop) = (log.filter fun m => m.deed.callback? = none).map fun m =>
      (m.place, m.deed.component) := by
  rw [entered, List.filter_map, List.map_map]
  rfl

/-- A component that has been given an element is the one at the place. -/
theorem follow?_of_created {v : PathVisitor σ ε} {root : Component} {log : List (Moment ε)}
    (onWay : log.map Moment.stop <+: root.stops v.order v.limit []) {place : List Nat}
    {c : Component} {element : ε} (mem : ⟨place, .created c element⟩ ∈ log) :
    root.follow? place = some c := by
  have created : (place, c) ∈ entered (log.map Moment.stop) := by
    rw [entered_map_stop]
    exact List.mem_map.mpr ⟨_, List.mem_filter.mpr ⟨mem, by simp [Deed.callback?]⟩, rfl⟩
  have inTree := (entered_stops_sublist v.order v.limit [] root).subset
    ((onWay.filter _).map _ |>.subset created)
  obtain ⟨below, rfl, leads⟩ := mem_placed_iff.mp inTree
  exact leads

/-- What a path tells that leads to a place. -/
theorem tells_of_stands {v : PathVisitor σ ε} {root : Component} {earlier : List (Moment ε)}
    (onWay : earlier.map Moment.stop <+: root.stops v.order v.limit []) {place : List Nat}
    {path : Path ε} (stands : Stands root (elementsAfter earlier) place path) :
    Tells root earlier place path where
  components_eq := stands.components
  entered upper isUpper := by
    obtain ⟨c, element, mem⟩ := exists_creation_of_elementsAfter (stands.isSome_of_isPrefix isUpper)
    exact ⟨c, element, follow?_of_created onWay mem, mem⟩
  depth_eq := stands.depth
  isRoot_iff := stands.isRoot_iff
  element_eq := stands.element.symm
  parent_eq := stands.parent?
  root_eq := stands.root_eq.symm

/-- In a crawl that folds, the elements below a component are final when it is called on. -/
theorem Combined.whole {v : PathVisitor σ ε} {root : Component} {f : ε → ε → ε}
    {earlier later : List (Moment ε)} {place : List Nat} {callback : Callback} {path : Path ε}
    {left : Except Fault (Ends ε)} (postOrder : v.order = .postOrder)
    (onWay : (earlier ++ ⟨place, .called callback path left⟩ :: later).map Moment.stop <+:
      root.stops v.order v.limit [])
    (combined : Combined f v.limit earlier place path) :
    Combined f v.limit (earlier ++ ⟨place, .called callback path left⟩ :: later) place path := by
  obtain ⟨created, finals, entered, finals_eq, element_eq⟩ := combined
  rw [postOrder] at onWay
  have closes := (pairwise_closes_stops v.limit [] root).sublist onWay.sublist
  refine ⟨created, finals, List.mem_append_left _ entered, ?_, element_eq⟩
  rw [childrenAfter_of_closes (by simp [Deed.callback?]) closes, finals_eq]

/-- At every call of a crawl the path is the chain of components that leads from the root, and its
elements are those which these components got when they were entered, once each and before all calls
on them or below, with the changes that calls have made to them since. The second call on a
component goes on from where the first has left the path. Where the visitor combines the element with
which it leaves each component into that of the parent, it finds at a component the element that was
created there, combined with the final elements of the visited children, from the first to the last.
A crawl that fails stops somewhere on its way. -/
theorem crawl_follows_paths (v : PathVisitor σ ε) (root : Component) (s : σ) :
    let crawled := v.observed.crawl root ⟨s, []⟩
    let itinerary := root.stops v.order v.limit []
    crawled.result = (v.crawl root s).result ∧ crawled.state.state = (v.crawl root s).state ∧
      ((entered itinerary).map Prod.fst).Nodup ∧
      (entered itinerary).map Prod.snd = root.visited v.limit ∧
      ∃ log : List (Moment ε), log.map Moment.deed = crawled.state.deeds ∧
        log.map Moment.stop <+: itinerary ∧
        (crawled.result = .ok () → log.map Moment.stop = itinerary) ∧
        ∀ earlier place callback path left later,
          log = earlier ++ ⟨place, .called callback path left⟩ :: later →
            Tells root earlier place path ∧
              (callback ≠ .any → ∃ rest first ends,
                earlier = rest ++ [⟨place, .called .any first (.ok ends)⟩] ∧
                  path = first.withEnds ends) ∧
              (callback = .any → ∀ f, v.Folds f → Combined f v.limit log place path) := by
  intro crawled itinerary
  obtain ⟨result, state, -⟩ := v.mirrors_crawl root ⟨s, []⟩
  have nodup : ((entered itinerary).map Prod.fst).Nodup :=
    (nodup_map_fst_placed [] root).sublist ((entered_stops_sublist _ _ [] root).map _)
  obtain ⟨log, deeds, trace, ends⟩ := v.traces_crawl root ⟨s, []⟩
  obtain ⟨onWay, whole⟩ : log.map Moment.stop <+: itinerary ∧
      (crawled.result = .ok () → log.map Moment.stop = itinerary) := by
    cases result : crawled.result with
    | ok a =>
      rw [result] at ends
      exact ⟨ends.1 ▸ List.prefix_rfl, fun _ => ends.1⟩
    | error fault =>
      rw [result] at ends
      exact ⟨ends.1, fun ok => by contradiction⟩
  refine ⟨result, state, nodup, map_snd_entered_stops _ _ [] root, log, deeds.symm, onWay, whole,
    ?_⟩
  intro earlier place callback path left later split
  have sees := trace.sees split
  subst split
  have part : earlier.map Moment.stop <+: itinerary := by
    rw [List.map_append] at onWay
    exact (List.prefix_append _ _).trans onWay
  refine ⟨tells_of_stands part sees.stands, sees.resumed, fun any f folds => ?_⟩
  exact (sees.combined any f folds).whole folds.postOrder onWay

end PathVisitor

namespace PathWitnesses

def root : Component :=
  .node ⟨"P", none, "P", .project ⟨1, none, none⟩⟩
    [.node ⟨"D", none, "D", .directory ⟨2, none, none⟩⟩
      [.node ⟨"F", none, "F", .file ⟨3, none, none⟩ {}⟩ []],
    .node ⟨"G", none, "G", .file ⟨4, none, none⟩ {}⟩ []]

/-- A visitor that counts the files below every component. At a file it sets its count, then it adds
the count of the component to that of the parent. -/
def fileCounter : PathVisitor Unit Nat where
  order := .postOrder
  limit := .file
  create _ s := (0, s)
  call
    | .any, path =>
      let count := if path.current.component.kind = .file then 1 else path.element
      pure ⟨count, path.parent?.map fun parent => parent + count⟩
    | .ofKind _, path => pure path.ends

theorem folds_fileCounter : fileCounter.Folds fun parent count => parent + count where
  postOrder := rfl
  combines {path _ _} left := by
    obtain rfl := Except.ok.inj left
    rw [Path.withEnds_ends, Path.parent?_withEnds_map]
    rfl

def crawled : Outcome (Observed Unit Nat) Unit :=
  fileCounter.observed.crawl root ⟨(), []⟩

/-- The component of a general call with the count it finds there and the one it leaves. -/
def counted? : Deed Nat → Option (String × Nat × Nat)
  | .called .any path (.ok ends) => some (path.current.component.key, path.element, ends.current)
  | _ => none

/-- Every call of the crawl finds a path that tells the truth, and every general call a number of
files that is the sum of those at the children. -/
theorem crawl_follows_paths_fileCounter :
    fileCounter.Folds (fun parent count => parent + count) ∧ crawled.result = .ok () ∧
      crawled.state.deeds.filterMap counted? =
        [("F", 0, 1), ("D", 1, 1), ("G", 0, 1), ("P", 2, 2)] ∧
      ∃ log : List (Moment Nat), log.map Moment.deed = crawled.state.deeds ∧
        log.map Moment.stop = root.stops .postOrder .file [] ∧ log.length = 12 ∧
        ∀ earlier place path left later,
          log = earlier ++ ⟨place, .called .any path left⟩ :: later →
            PathVisitor.Tells root earlier place path ∧
              PathVisitor.Combined (fun parent count => parent + count) .file log place path := by
  have folds := folds_fileCounter
  have ok : crawled.result = .ok () := rfl
  obtain ⟨-, -, -, -, log, deeds, -, whole, calls⟩ :=
    PathVisitor.crawl_follows_paths fileCounter root ()
  refine ⟨folds, ok, by decide +kernel, log, deeds, whole ok, ?_, ?_⟩
  · rw [← List.length_map Moment.deed, deeds]
    decide +kernel
  · intro earlier place path left later split
    obtain ⟨tells, -, combined⟩ := calls earlier place .any path left later split
    exact ⟨tells, combined rfl _ folds⟩

end PathWitnesses

end Metrology
