import Metrology.Crawl.PathVisitor
import Metrology.Proofs.SharedWalk
import Metrology.Proofs.TreeShape

/-! # Itineraries

A crawl along paths stops at every component it visits, first to give it an element and then to make
its two calls, before or after it goes to the children. Keys need not tell components apart here, so
a stop says by the child positions from the root where it is.
-/

namespace Metrology

open Component

/-- One thing that a crawl along paths does at a component. -/
structure Stop where
  /-- The child positions that lead from the root of the crawl to the component. -/
  place : List Nat
  component : Component
  /-- The call that is made. There is none where the component is entered and gets its element. -/
  callback : Option Callback

/-- After a call on a component there is no stop below it. -/
def Stop.Closes (called later : Stop) : Prop :=
  called.callback ≠ none → ∀ i, ¬ called.place ++ [i] <+: later.place

namespace Component

/-- The stop at which a component is entered. -/
def entrance (place : List Nat) (c : Component) : Stop :=
  ⟨place, c, none⟩

/-- The stops for the calls of a component, if it is the time for them. -/
def callsAt (order time : CrawlOrder) (place : List Nat) (c : Component) : List Stop :=
  if order = time then [⟨place, c, some .any⟩, ⟨place, c, some (.ofKind c.kind)⟩] else []

mutual

/-- The stops of a crawl that comes to the component at `place`. -/
def stops (order : CrawlOrder) (limit : DepthLimit) (place : List Nat) : Component → List Stop
  | .node profile children =>
    if limit.Allows profile.role.kind then
      entrance place (.node profile children) ::
        (callsAt order .preOrder place (.node profile children) ++
          stopsAll order limit place 0 children ++
          callsAt order .postOrder place (.node profile children))
    else []

/-- The stops at the children of the component at `place`, from the given position on, and below. -/
def stopsAll (order : CrawlOrder) (limit : DepthLimit) (place : List Nat) (position : Nat) :
    List Component → List Stop
  | [] => []
  | c :: cs => stops order limit (place ++ [position]) c ++
      stopsAll order limit place (position + 1) cs

end

variable {order time : CrawlOrder} {limit : DepthLimit} {place : List Nat} {c : Component}

theorem stops_of_allows (allowed : limit.Allows c.kind) :
    c.stops order limit place = entrance place c :: (c.callsAt order .preOrder place ++
      stopsAll order limit place 0 c.children ++ c.callsAt order .postOrder place) := by
  cases c with
  | node profile children =>
    rw [stops]
    exact if_pos allowed

theorem stops_of_not_allows (denied : ¬ limit.Allows c.kind) : c.stops order limit place = [] := by
  cases c with
  | node profile children =>
    rw [stops]
    exact if_neg denied

/-! ## The places of stops -/

theorem eq_of_isPrefix_concat {place lower : List Nat} {i j : Nat} (within : place ++ [i] <+: lower)
    (within' : place ++ [j] <+: lower) : i = j := by
  have same := (List.prefix_of_prefix_length_le within within' (by simp)).eq_of_length (by simp)
  exact List.singleton_inj.mp (List.append_cancel_left same)

theorem place_eq_of_mem_callsAt {stop : Stop} (mem : stop ∈ c.callsAt order time place) :
    stop.place = place := by
  unfold callsAt at mem
  split at mem
  · rcases List.mem_pair.mp mem with rfl | rfl <;> rfl
  · contradiction

theorem isPrefix_of_mem_stopsAll {cs : List Component} {position : Nat} {stop : Stop}
    (each : ∀ c ∈ cs, ∀ place, ∀ stop ∈ c.stops order limit place, place <+: stop.place)
    (mem : stop ∈ stopsAll order limit place position cs) :
    ∃ i, position ≤ i ∧ place ++ [i] <+: stop.place := by
  induction cs generalizing position with
  | nil => contradiction
  | cons c cs ih =>
    rw [stopsAll, List.mem_append] at mem
    rcases mem with here | there
    · exact ⟨position, le_rfl, each c List.mem_cons_self _ _ here⟩
    · obtain ⟨i, later, within⟩ := ih (fun d mem => each d (List.mem_cons_of_mem _ mem)) there
      exact ⟨i, by omega, within⟩

/-- All stops of a crawl from a place are there or below. -/
theorem isPrefix_of_mem_stops {stop : Stop} (mem : stop ∈ c.stops order limit place) :
    place <+: stop.place := by
  induction c generalizing place stop with
  | node profile children ih =>
    by_cases allowed : limit.Allows (node profile children).kind
    · rw [stops_of_allows allowed, List.mem_cons, List.mem_append, List.mem_append] at mem
      rcases mem with rfl | (pre | below) | post
      · exact List.prefix_rfl
      · exact (place_eq_of_mem_callsAt pre).symm ▸ List.prefix_rfl
      · obtain ⟨i, -, within⟩ :=
          isPrefix_of_mem_stopsAll (fun child mem _ _ there => ih child mem there) below
        exact (List.prefix_append _ _).trans within
      · exact (place_eq_of_mem_callsAt post).symm ▸ List.prefix_rfl
    · rw [stops_of_not_allows allowed] at mem
      contradiction

/-- The stops at the children of a component are below them, and none is at a child before the
given position. -/
theorem exists_position_of_mem_stopsAll {cs : List Component} {position : Nat} {stop : Stop}
    (mem : stop ∈ stopsAll order limit place position cs) :
    ∃ i, position ≤ i ∧ place ++ [i] <+: stop.place :=
  isPrefix_of_mem_stopsAll (fun _ _ _ _ there => isPrefix_of_mem_stops there) mem

theorem pairwise_closes_callsAt : (c.callsAt order time place).Pairwise Stop.Closes := by
  refine List.pairwise_of_forall_mem_list fun called mem later mem' _ i within => ?_
  have shorter := within.length_le
  rw [place_eq_of_mem_callsAt mem, place_eq_of_mem_callsAt mem', List.length_append,
    List.length_singleton] at shorter
  omega

theorem pairwise_closes_stopsAll {cs : List Component} (position : Nat)
    (each : ∀ c ∈ cs, ∀ place, (c.stops order limit place).Pairwise Stop.Closes) :
    (stopsAll order limit place position cs).Pairwise Stop.Closes := by
  induction cs generalizing position with
  | nil => exact .nil
  | cons c cs ih =>
    rw [stopsAll, List.pairwise_append]
    refine ⟨each c List.mem_cons_self _, ih _ fun d mem => each d (List.mem_cons_of_mem _ mem), ?_⟩
    intro called here later there _ i within
    obtain ⟨j, after, within'⟩ := exists_position_of_mem_stopsAll there
    have above := (isPrefix_of_mem_stops here).trans (List.prefix_append _ [i])
    have same := eq_of_isPrefix_concat (above.trans within) within'
    omega

/-- Where components are called on after all those below them, a call closes what is below. -/
theorem pairwise_closes_stops (limit : DepthLimit) (place : List Nat) (c : Component) :
    (c.stops .postOrder limit place).Pairwise Stop.Closes := by
  induction c generalizing place with
  | node profile children ih =>
    by_cases allowed : limit.Allows (node profile children).kind
    · have none : (node profile children).callsAt .postOrder .preOrder place = [] := rfl
      rw [stops_of_allows allowed, none, List.nil_append, List.pairwise_cons, List.pairwise_append]
      refine ⟨fun later _ called => absurd rfl called,
        pairwise_closes_stopsAll 0 fun child mem place => ih child mem place,
        pairwise_closes_callsAt, ?_⟩
      intro called below later own _ i within
      obtain ⟨j, -, within'⟩ := exists_position_of_mem_stopsAll below
      have shorter := (within'.trans (List.prefix_append _ [i])).trans within |>.length_le
      rw [place_eq_of_mem_callsAt own, List.length_append, List.length_singleton] at shorter
      omega
    · rw [stops_of_not_allows allowed]
      exact .nil

/-! ## Entrances and calls -/

/-- The components that are entered at some stops, with their places. -/
def entered (stops : List Stop) : List (List Nat × Component) :=
  (stops.filter fun stop => stop.callback = none).map fun stop => (stop.place, stop.component)

/-- The calls that are made at some stops. -/
def calledOn (stops : List Stop) : List (Callback × Component) :=
  stops.filterMap fun stop => stop.callback.map fun callback => (callback, stop.component)

theorem entered_append (first second : List Stop) :
    entered (first ++ second) = entered first ++ entered second := by
  rw [entered, List.filter_append, List.map_append]
  rfl

theorem entered_callsAt : entered (c.callsAt order time place) = [] := by
  unfold callsAt entered
  split <;> simp

/-- The stops at entrances follow the recursion of the components placed, as far as the limit
allows. -/
theorem entered_stopsAll_sublist {cs : List Component} (position : Nat)
    (each : ∀ c ∈ cs, ∀ place, (entered (c.stops order limit place)).Sublist (c.placed place)) :
    (entered (stopsAll order limit place position cs)).Sublist (placedAll place position cs) := by
  induction cs generalizing position with
  | nil => exact .slnil
  | cons c cs ih =>
    rw [stopsAll, entered_append, placedAll]
    have rest := ih (position + 1) fun d mem => each d (List.mem_cons_of_mem _ mem)
    exact (each c List.mem_cons_self _).append rest

theorem map_snd_entered_stopsAll {cs : List Component} (position : Nat)
    (each : ∀ c ∈ cs, ∀ place,
      (entered (c.stops order limit place)).map Prod.snd = c.visited limit) :
    (entered (stopsAll order limit place position cs)).map Prod.snd =
      cs.flatMap (visited limit) := by
  induction cs generalizing position with
  | nil => rfl
  | cons c cs ih =>
    rw [stopsAll, entered_append, List.map_append, List.flatMap_cons, each c List.mem_cons_self,
      ih _ fun d mem => each d (List.mem_cons_of_mem _ mem)]

theorem entered_stops_of_allows (allowed : limit.Allows c.kind) :
    entered (c.stops order limit place) =
      (place, c) :: entered (stopsAll order limit place 0 c.children) := by
  have entrances : entered [entrance place c] = [(place, c)] := rfl
  rw [stops_of_allows allowed, ← List.singleton_append, entered_append, entered_append,
    entered_append, entered_callsAt, entered_callsAt, entrances, List.append_nil, List.nil_append]
  rfl

/-- The components visited are entered, each before those below it, and no others are. -/
theorem map_snd_entered_stops (order : CrawlOrder) (limit : DepthLimit) (place : List Nat)
    (c : Component) : (entered (c.stops order limit place)).map Prod.snd = c.visited limit := by
  induction c generalizing place with
  | node profile children ih =>
    by_cases allowed : limit.Allows (node profile children).kind
    · rw [entered_stops_of_allows allowed, visited_eq_cons allowed, List.map_cons]
      exact congrArg _ (map_snd_entered_stopsAll 0 fun child mem place => ih child mem place)
    · rw [stops_of_not_allows allowed, visited_eq_nil allowed]
      rfl

/-- Components are entered at their own places. -/
theorem entered_stops_sublist (order : CrawlOrder) (limit : DepthLimit) (place : List Nat)
    (c : Component) : (entered (c.stops order limit place)).Sublist (c.placed place) := by
  induction c generalizing place with
  | node profile children ih =>
    by_cases allowed : limit.Allows (node profile children).kind
    · rw [entered_stops_of_allows allowed, placed]
      exact (entered_stopsAll_sublist 0 fun child mem place => ih child mem place).cons_cons _
    · rw [stops_of_not_allows allowed]
      exact List.nil_sublist _

theorem nodup_map_fst_placedAll {cs : List Component} {place : List Nat} (position : Nat)
    (each : ∀ c ∈ cs, ∀ place, ((c.placed place).map Prod.fst).Nodup) :
    ((placedAll place position cs).map Prod.fst).Nodup := by
  induction cs generalizing position with
  | nil => exact List.nodup_nil
  | cons c cs ih =>
    rw [placedAll, List.map_append, List.nodup_append]
    refine ⟨each c List.mem_cons_self _, ih _ fun d mem => each d (List.mem_cons_of_mem _ mem), ?_⟩
    rintro _ first _ later rfl
    obtain ⟨⟨_, d⟩, mem, rfl⟩ := List.mem_map.mp first
    obtain ⟨⟨_, d'⟩, mem', same⟩ := List.mem_map.mp later
    obtain ⟨below, rfl, -⟩ := mem_placed_iff.mp mem
    obtain ⟨i, _, -, mem'⟩ := mem_placedAll_iff.mp mem'
    obtain ⟨below', rfl, -⟩ := mem_placed_iff.mp mem'
    rw [List.append_assoc, List.append_assoc, List.append_cancel_left_eq] at same
    have head : position + 1 + i = position := (List.cons.inj same).1
    omega

/-- No place is that of two components. -/
theorem nodup_map_fst_placed (place : List Nat) (c : Component) :
    ((c.placed place).map Prod.fst).Nodup := by
  induction c generalizing place with
  | node profile children ih =>
    rw [placed, List.map_cons, List.nodup_cons]
    refine ⟨fun again => ?_, nodup_map_fst_placedAll 0 fun child mem place => ih child mem place⟩
    obtain ⟨⟨_, d⟩, mem, same⟩ := List.mem_map.mp again
    obtain ⟨i, child, -, mem⟩ := mem_placedAll_iff.mp mem
    obtain ⟨below, rfl, -⟩ := mem_placed_iff.mp mem
    rw [List.append_assoc, List.append_right_eq_self] at same
    contradiction

theorem calledOn_append (first second : List Stop) :
    calledOn (first ++ second) = calledOn first ++ calledOn second :=
  List.filterMap_append

theorem calledOn_callsAt :
    calledOn (c.callsAt order time place) = (c.ifTime order time).flatMap callbacks := by
  unfold callsAt ifTime
  split <;> rfl

theorem calledOn_stopsAll {cs : List Component} (position : Nat)
    (each : ∀ c ∈ cs, ∀ place,
      calledOn (c.stops order limit place) = (c.inOrder order limit).flatMap callbacks) :
    calledOn (stopsAll order limit place position cs) =
      (cs.flatMap (inOrder order limit)).flatMap callbacks := by
  induction cs generalizing position with
  | nil => rfl
  | cons c cs ih =>
    rw [stopsAll, calledOn_append, List.flatMap_cons, List.flatMap_append,
      each c List.mem_cons_self, ih _ fun d mem => each d (List.mem_cons_of_mem _ mem)]

/-- The calls are those on the components visited, in the order of the crawl. -/
theorem calledOn_stops (order : CrawlOrder) (limit : DepthLimit) (place : List Nat)
    (c : Component) :
    calledOn (c.stops order limit place) = (c.inOrder order limit).flatMap callbacks := by
  induction c generalizing place with
  | node profile children ih =>
    by_cases allowed : limit.Allows (node profile children).kind
    · have below : calledOn (stopsAll order limit place 0 children) =
          (children.flatMap (inOrder order limit)).flatMap callbacks :=
        calledOn_stopsAll 0 fun child mem place => ih child mem place
      have entrances : calledOn [entrance place (node profile children)] = [] := rfl
      rw [stops_of_allows allowed, inOrder_of_allows allowed, ← List.singleton_append,
        calledOn_append, calledOn_append, calledOn_append, calledOn_callsAt, calledOn_callsAt,
        entrances, List.nil_append, List.flatMap_append, List.flatMap_append]
      exact congrArg (fun calls => _ ++ calls ++ _) below
    · rw [stops_of_not_allows allowed, inOrder_of_not_allows allowed]
      rfl

end Component

end Metrology
