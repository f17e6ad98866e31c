import Metrology.Component.Tree
import Metrology.Proofs.Aggregation.Gathering
import Metrology.Proofs.Aggregation.LeafSums

/-! # Exact sums over a tree

A sum formula that succeeds stores at every component within the depth limit the exact sum of the
numbers its leaves hold, and nothing where there are none. It fails if a partial sum leaves the type
of the formula anywhere in the tree, and for no other reason.
-/

namespace Metrology

open Metrology.Action Component

variable {catalog : Catalog}

/-- The catalog has a metric of this key and type. -/
def Catalog.Declares (catalog : Catalog) (key : String) (type : ValueType) : Prop :=
  ∃ metric, catalog.find? key = some metric ∧ metric.valueType = type

/-- What is stored for a metric fits its type. -/
theorem Store.fits_of_find? {store : Store catalog} {component key : String} {type : ValueType}
    (declared : catalog.Declares key type) {measure : Measure}
    (held : store.find? component key = some measure) : measure.value.Fits type := by
  obtain ⟨metric, known, rfl⟩ := declared
  obtain ⟨metric', known', -, fits⟩ := store.admits_of_find? held
  rw [known] at known'
  obtain rfl := Option.some.inj known'
  exact fits

namespace Formula

/-- The state is ready for the sums of these components: it holds the numbers of the start, and no
measures for the sums yet. -/
structure Ready (start : Store catalog) (input output : String) (components : List Component)
    (s : Counted (Store catalog)) : Prop where
  reads : ∀ component, s.state.find? component input = start.find? component input
  free : ∀ c ∈ components, s.state.find? c.key output = none

/-- The sums of these components were stored and counted, and nothing else was changed. -/
structure SumsStored (start : Store catalog) (limit : DepthLimit) (input output : String)
    (components : List Component) (before after : Counted (Store catalog)) : Prop where
  stored : ∀ c ∈ components, (after.state.find? c.key output).map (fun m => m.value.whole?) =
    (c.leafSum? limit start input).map some
  others : ∀ {component metric}, (metric = output → component ∉ components.map key) →
    after.state.find? component metric = before.state.find? component metric
  counted : after.count =
    before.count + components.countP fun c => (c.leafSum? limit start input).isSome

section Storing

variable {start : Store catalog} {limit : DepthLimit} {input output : String}
  {components components' : List Component} {s s' s'' : Counted (Store catalog)}

theorem Ready.mono (ready : Ready start input output components s)
    (fewer : components' ⊆ components) : Ready start input output components' s :=
  ⟨ready.reads, fun c mem => ready.free c (fewer mem)⟩

/-- Storing the sums of some components leaves the state ready for the others. -/
theorem Ready.after (ready : Ready start input output components s)
    (others : SumsStored start limit input output components' s s') (apart : input ≠ output)
    (disjoint : (components'.map key).Disjoint (components.map key)) :
    Ready start input output components s' := by
  constructor
  · intro component
    rw [others.others fun same => absurd same apart, ready.reads]
  · intro c mem
    rw [others.others fun _ mem' => disjoint mem' (List.mem_map_of_mem mem), ready.free c mem]

theorem SumsStored.nil (s : Counted (Store catalog)) :
    SumsStored start limit input output [] s s :=
  ⟨fun _ mem => absurd mem List.not_mem_nil, fun _ => rfl, rfl⟩

theorem SumsStored.append (first : SumsStored start limit input output components s s')
    (second : SumsStored start limit input output components' s' s'')
    (disjoint : (components.map key).Disjoint (components'.map key)) :
    SumsStored start limit input output (components ++ components') s s'' := by
  constructor
  · intro c mem
    rcases List.mem_append.mp mem with mem | mem
    · rw [second.others fun _ mem' => disjoint (List.mem_map_of_mem mem) mem', first.stored c mem]
    · exact second.stored c mem
  · intro component metric untouched
    rw [List.map_append] at untouched
    rw [second.others fun same mem => untouched same (List.mem_append_right _ mem),
      first.others fun same mem => untouched same (List.mem_append_left _ mem)]
  · rw [second.counted, first.counted, List.countP_append, Nat.add_assoc]

theorem SumsStored.perm (stored : SumsStored start limit input output components s s')
    (perm : components.Perm components') :
    SumsStored start limit input output components' s s' := by
  constructor
  · exact fun c mem => stored.stored c (perm.mem_iff.mpr mem)
  · exact fun untouched => stored.others fun same mem =>
      untouched same ((perm.map key).mem_iff.mp mem)
  · rw [stored.counted, perm.countP_eq]

end Storing

section Runs

variable {τ : Type} [Whole τ]

/-- An outcome as a sum formula can have it: if `overflow` it fails with an overflow, otherwise it
gives a counter that has gathered the numbers, and the sums of the components are stored. -/
def SumsUp (start : Store catalog) (limit : DepthLimit) (input output : String) (overflow : Prop)
    (numbers : List Int) (components : List Component) (s : Counted (Store catalog))
    (outcome : Outcome (Counted (Store catalog)) (List (SumCounter τ))) : Prop :=
  (overflow ∧ outcome.result = .error (.sumOverflow input)) ∨
    ¬ overflow ∧ ∃ counter, outcome.result = .ok [counter] ∧ counter.Gathered input numbers ∧
      SumsStored start limit input output components s outcome.state

variable {start : Store catalog} {limit : DepthLimit} {traced : Bool} {input output : String}
  {counter : SumCounter τ} {numbers : List Int} {c : Component}

theorem feed_singleton {κ : Type} [Counter κ] (leaf : Leaf) (counter : κ) :
    feed leaf [counter] = ((Counter.aggregateLeaf leaf).after counter).map fun fed => [fed] := by
  rw [feed, List.mapM_cons, List.mapM_nil]
  cases (Counter.aggregateLeaf leaf).after counter <;> rfl

theorem fold_singleton {κ : Type} [Counter κ] (parent child : κ) :
    fold [parent] [child] = ((Counter.aggregate child).after parent).map fun grown => [grown] := by
  rw [fold, List.zip_cons_cons, List.zip_nil_left, List.mapM_cons, List.mapM_nil]
  change ((Counter.aggregate child).after parent >>= _) = _
  cases (Counter.aggregate child).after parent <;> rfl

/-- A sum formula makes a measure of the sum of its counter, if there is one. -/
theorem measure?_sum {metric : Metric} (known : catalog.find? output = some metric)
    (type : metric.valueType = Whole.valueType τ) (counter : SumCounter τ) (c : Component) :
    (sum input output : Formula (SumCounter τ)).measure? counter c metric =
      .ok (counter.total.map fun value => ⟨output, Summand.toValue value⟩) := by
  have key := Catalog.key_of_find? known
  cases held : counter.total with
  | none => simp only [sum, held, Option.map_none, measureOf]
  | some value =>
    have fits : (Summand.toValue value).Fits metric.valueType :=
      .inr ((Whole.type_toValue value).trans type.symm)
    simp only [sum, held, measureOf, Option.map_some, Measure.of, if_pos fits, key]
    rfl

theorem SumsStored.of_absent (absent : c.leafSum? limit start input = none)
    {s : Counted (Store catalog)} (free : s.state.find? c.key output = none) :
    SumsStored start limit input output [c] s s := by
  refine ⟨?_, fun _ => rfl, by simp [absent]⟩
  intro d mem
  obtain rfl := List.mem_singleton.mp mem
  rw [free, absent]
  rfl

theorem SumsStored.of_put {value : τ}
    (present : c.leafSum? limit start input = some (Whole.toInt value))
    (s : Counted (Store catalog))
    (admits : catalog.Admits output ⟨output, Summand.toValue value⟩) :
    SumsStored start limit input output [c] s
      ⟨s.state.put c.key output ⟨output, Summand.toValue value⟩ admits, s.count + 1⟩ := by
  constructor
  · intro d mem
    obtain rfl := List.mem_singleton.mp mem
    rw [Store.find?_put, if_pos ⟨rfl, rfl⟩, present]
    exact congrArg some (Whole.whole?_toValue value)
  · intro component metric untouched
    rw [Store.find?_put, if_neg]
    rintro ⟨rfl, rfl⟩
    exact untouched rfl (by simp)
  · simp [present]

/-- What a component stores is the sum its counter has gathered. -/
theorem storeOutputs_sum (storable : catalog.Declares output (Whole.valueType τ))
    (gathered : counter.Gathered input numbers)
    (total : exactSum? numbers = c.leafSum? limit start input) {s : Counted (Store catalog)}
    (ready : Ready start input output [c] s) :
    (storeOutputs traced c [(sum input output : Formula (SumCounter τ))] [counter] s).result =
        .ok () ∧
      SumsStored start limit input output [c] s (storeOutputs traced c
        [(sum input output : Formula (SumCounter τ))] [counter] s).state := by
  have single : storeOutputs traced c [(sum input output : Formula (SumCounter τ))] [counter] =
      (storeOutput traced c (sum input output) counter output :
        Action (Counted (Store catalog)) Unit) := by
    simp [storeOutputs, sum]
  obtain ⟨metric, known, type⟩ := storable
  have made : (sum input output : Formula (SumCounter τ)).measure? counter c metric = _ :=
    measure?_sum known type counter c
  have free := ready.free c List.mem_cons_self
  rw [← gathered.total] at total
  rw [single]
  cases held : counter.total with
  | none =>
    rw [held] at made total
    rw [storeOutput_of_none known made]
    exact ⟨rfl, SumsStored.of_absent total.symm free⟩
  | some value =>
    rw [held] at made total
    have admits : catalog.Admits output ⟨output, Summand.toValue value⟩ :=
      ⟨metric, known, rfl, .inr ((Whole.type_toValue value).trans type.symm)⟩
    obtain ⟨ok, state⟩ : (storeOutput traced c (sum input output) counter output s).result =
          .ok () ∧
        (storeOutput traced c (sum input output) counter output s).state =
          ⟨s.state.put c.key output _ admits, s.count + 1⟩ :=
      storeOutput_of_some known made (Store.add_eq_ok_iff.mpr ⟨admits, free, rfl⟩)
    rw [state]
    exact ⟨ok, SumsStored.of_put total.symm s admits⟩

/-- A component at leaf depth adds its own number to what its counter has gathered. -/
theorem feedAt_sum (limit : DepthLimit) (readable : catalog.Declares input (Whole.valueType τ))
    (gathered : counter.Gathered input numbers) {store : Store catalog}
    (reads : store.find? c.key input = start.find? c.key input) :
    let own := (c.ownNumber? limit start input).toList
    (LeavesRange τ numbers.sum own ∧
        feedAt limit store c [counter] = .error (.sumOverflow input)) ∨
      ¬ LeavesRange τ numbers.sum own ∧
        ∃ counter', feedAt limit store c [counter] = .ok [counter'] ∧
          counter'.Gathered input (numbers ++ own) := by
  intro own
  by_cases leaf : limit.IsLeafDepth c.kind
  · have measured : (leafOf store c).measure counter.metric = .ok (start.find? c.key input) := by
      obtain ⟨metric, known, -⟩ := readable
      rw [gathered.sums, ← reads]
      exact Store.get_of_find? known
    obtain ⟨number, same, after⟩ := SumCounter.after_aggregateLeaf (τ := τ) measured
      fun measure held => Store.fits_of_find? readable held
    have isOwn : own = (number.map Whole.toInt).toList := by
      simp only [own, ownNumber?, if_pos leaf, same, Store.whole?]
    rw [isOwn, feedAt, if_pos leaf, feed_singleton, after]
    rcases gathered.after_offer number with ⟨leaves, failed⟩ | ⟨stays, counter', ok, more⟩
    · left
      rw [failed]
      exact ⟨leaves, rfl⟩
    · right
      rw [ok]
      exact ⟨stays, counter', rfl, more⟩
  · right
    have noOwn : own = [] := by
      simp only [own, ownNumber?, if_neg leaf, Option.toList_none]
    rw [noOwn, List.append_nil, feedAt, if_neg leaf]
    exact ⟨fun leaves => leavesRange_nil.mp leaves gathered.inRange, counter, rfl, gathered⟩

theorem complete_sumsUp (readable : catalog.Declares input (Whole.valueType τ))
    (storable : catalog.Declares output (Whole.valueType τ))
    (gathered : counter.Gathered input numbers)
    (total : exactSum? (numbers ++ (c.ownNumber? limit start input).toList) =
      c.leafSum? limit start input) {s : Counted (Store catalog)}
    (ready : Ready start input output [c] s) :
    SumsUp start limit input output
      (LeavesRange τ numbers.sum (c.ownNumber? limit start input).toList)
      (numbers ++ (c.ownNumber? limit start input).toList) [c] s
      (complete [(sum input output : Formula (SumCounter τ))] limit traced c [counter] s) := by
  rw [complete_apply]
  rcases feedAt_sum limit readable gathered (ready.reads c.key) with
    ⟨leaves, failed⟩ | ⟨stays, counter', ok, more⟩
  · left
    rw [failed]
    exact ⟨leaves, rfl⟩
  · right
    obtain ⟨stored, sums⟩ : _ ∧ SumsStored start limit input output [c] s
      (storeOutputs traced c [(sum input output : Formula (SumCounter τ))] [counter'] s).state :=
        storeOutputs_sum storable more total ready
    have done : (ofExcept (feedAt limit s.state c [counter]) >>= fun counters =>
        storeOutputs traced c [(sum input output : Formula (SumCounter τ))] counters >>=
          fun _ => pure counters) =
        (storeOutputs traced c [(sum input output : Formula (SumCounter τ))] [counter'] >>=
          fun _ => pure [counter'] : Action (Counted (Store catalog)) _) := by
      rw [ok]
      rfl
    rw [done, bind_apply_ok _ stored]
    exact ⟨stays, counter', rfl, more, sums⟩

theorem SumsUp.congr {overflow overflow' : Prop} {components : List Component}
    {s : Counted (Store catalog)}
    {outcome : Outcome (Counted (Store catalog)) (List (SumCounter τ))}
    (sumsUp : SumsUp start limit input output overflow numbers components s outcome)
    (same : overflow ↔ overflow') :
    SumsUp start limit input output overflow' numbers components s outcome :=
  propext same ▸ sumsUp

theorem SumsUp.after {overflow : Prop} {components components' : List Component}
    {s s' : Counted (Store catalog)}
    {outcome : Outcome (Counted (Store catalog)) (List (SumCounter τ))}
    (second : SumsUp start limit input output overflow numbers components' s' outcome)
    (first : SumsStored start limit input output components s s')
    (disjoint : (components.map key).Disjoint (components'.map key)) :
    SumsUp start limit input output overflow numbers (components ++ components') s outcome := by
  rcases second with failed | ⟨stays, counter, ok, gathered, stored⟩
  · exact .inl failed
  · exact .inr ⟨stays, counter, ok, gathered, first.append stored disjoint⟩

/-- A parent adds the sum of a child, if there is one, to what its counter has gathered. -/
theorem fold_sum (gathered : counter.Gathered input numbers) {child : SumCounter τ}
    {numbers' : List Int} (gathered' : child.Gathered input numbers') :
    (LeavesRange τ numbers.sum (exactSum? numbers').toList ∧
        fold [counter] [child] = .error (.sumOverflow input)) ∨
      ¬ LeavesRange τ numbers.sum (exactSum? numbers').toList ∧
        ∃ counter', fold [counter] [child] = .ok [counter'] ∧
          counter'.Gathered input (numbers ++ (exactSum? numbers').toList) := by
  have offered : Counter.aggregate child = SumCounter.offer child.total := by
    cases held : child.total <;> simp [Counter.aggregate, SumCounter.offer, held]
  rw [fold_singleton, offered, ← gathered'.total]
  rcases gathered.after_offer child.total with ⟨leaves, failed⟩ | ⟨stays, counter', ok, more⟩
  · left
    rw [failed]
    exact ⟨leaves, rfl⟩
  · right
    rw [ok]
    exact ⟨stays, counter', rfl, more⟩

/-- A parent adds up the sums of its visited children one after the other. -/
theorem gatherAll_sumsUp (apart : input ≠ output) {cs : List Component}
    (wellFormed : ∀ c ∈ cs, c.WellFormed)
    (each : ∀ c ∈ cs, limit.Allows c.kind → ∀ depth s,
      Ready start input output (c.visited limit) s →
        SumsUp start limit input output (c.Overflows limit start input τ)
          (c.summands limit start input) (c.visited limit) s
          (gather [(sum input output : Formula (SumCounter τ))] limit traced c depth s))
    (nodup : ((cs.flatMap (visited limit)).map key).Nodup) (depth : Nat)
    (gathered : counter.Gathered input numbers) {s : Counted (Store catalog)}
    (ready : Ready start input output (cs.flatMap (visited limit)) s) :
    SumsUp start limit input output
      ((∃ c ∈ cs, limit.Allows c.kind ∧ c.Overflows limit start input τ) ∨
        LeavesRange τ numbers.sum (leafSums limit start input cs))
      (numbers ++ leafSums limit start input cs) (cs.flatMap (visited limit)) s
      (gatherAll [(sum input output : Formula (SumCounter τ))] limit traced cs depth [counter]
        s) := by
  -- `numbers` are the sums of the children that came before these.
  induction cs generalizing counter numbers s with
  | nil =>
    right
    refine ⟨?_, counter, rfl, ?_, SumsStored.nil s⟩
    · rintro (⟨c, mem, -⟩ | leaves)
      · contradiction
      · exact leavesRange_nil.mp leaves gathered.inRange
    · rwa [leafSums, List.filter_nil, List.filterMap_nil, List.append_nil]
  | cons c cs ih =>
    rw [List.flatMap_cons, List.map_append, List.nodup_append'] at nodup
    rw [List.flatMap_cons] at ready
    have wellFormed' : ∀ d ∈ cs, d.WellFormed := fun d mem =>
      wellFormed d (List.mem_cons_of_mem _ mem)
    have each' := fun d (mem : d ∈ cs) => each d (List.mem_cons_of_mem _ mem)
    simp only [List.flatMap_cons, List.exists_mem_cons_iff]
    rw [gatherAll]
    by_cases allowed : limit.Allows c.kind
    · rw [if_pos allowed, leafSums_cons_of_allows allowed, leavesRange_append]
      have total : exactSum? (c.summands limit start input) = c.leafSum? limit start input :=
        exactSum?_summands (wellFormed c List.mem_cons_self)
      rcases each c List.mem_cons_self allowed depth s
          (ready.mono (List.subset_append_left _ _)) with
        ⟨overflows, failed⟩ | ⟨stays, child, ok, gathered', stored⟩
      · left
        rw [bind_apply_error _ failed]
        exact ⟨.inl (.inl ⟨allowed, overflows⟩), rfl⟩
      · rw [bind_apply_ok _ ok]
        rcases fold_sum gathered gathered' with ⟨leaves, failed⟩ | ⟨fits, grown, folded, more⟩
        · left
          rw [failed]
          rw [total] at leaves
          exact ⟨.inr (.inl leaves), rfl⟩
        · rw [folded]
          -- The sum of this child is one more of the numbers for the children after it.
          rw [total] at fits more
          have rest := ready.mono (List.subset_append_right _ _)
          have later := ih wellFormed' each' nodup.2.1 more
            (rest.after stored apart nodup.2.2)
          rw [List.sum_append, List.append_assoc] at later
          refine (later.congr ?_).after stored nodup.2.2
          simp only [stays, fits, and_false, false_or]
    · rw [if_neg allowed, leafSums_cons_of_not_allows allowed, visited_eq_nil allowed,
        List.nil_append]
      rw [visited_eq_nil allowed, List.nil_append] at ready
      exact (ih wellFormed' each' nodup.2.1 gathered ready).congr (by simp [allowed])

/-- Once its children are done a component completes what they have gathered. -/
theorem gather_node_sumsUp (apart : input ≠ output)
    (readable : catalog.Declares input (Whole.valueType τ))
    (storable : catalog.Declares output (Whole.valueType τ)) {profile : Profile}
    {children visited : List Component} {overflow : Prop}
    (total : exactSum? ((node profile children).summands limit start input) =
      (node profile children).leafSum? limit start input)
    (fresh : (node profile children).key ∉ visited.map key) {depth : Nat}
    {s : Counted (Store catalog)}
    (ready : Ready start input output (node profile children :: visited) s)
    (below : SumsUp start limit input output
      (overflow ∨ LeavesRange τ 0 (leafSums limit start input children))
      (leafSums limit start input children) visited s
      (gatherAll [(sum input output : Formula (SumCounter τ))] limit traced children (depth + 1)
        [⟨input, none⟩] s)) :
    SumsUp start limit input output
      (overflow ∨ LeavesRange τ 0 ((node profile children).summands limit start input))
      ((node profile children).summands limit start input) (node profile children :: visited) s
      (gather [(sum input output : Formula (SumCounter τ))] limit traced (node profile children)
        depth s) := by
  rw [gather_node_apply, summands, leavesRange_append, Int.zero_add, ← or_assoc]
  rcases below with ⟨overflows, failed⟩ | ⟨stays, counter, ok, gathered, stored⟩
  · left
    refine ⟨.inl overflows, ?_⟩
    exact congrArg Outcome.result (bind_apply_error _ failed)
  · have disjoint := List.disjoint_singleton.mpr fresh
    have own := (ready.mono (List.cons_subset_cons _ (List.nil_subset _))).after stored apart
      disjoint
    have completed : SumsUp start limit input output _ _ _ _
        (complete [(sum input output : Formula (SumCounter τ))] limit traced
          (node profile children) [counter] _) :=
      complete_sumsUp readable storable gathered total own
    have run := bind_apply_ok
      (complete [(sum input output : Formula (SumCounter τ))] limit traced
        (node profile children)) ok
    rcases completed.after stored disjoint with
      ⟨leaves, failed⟩ | ⟨fits, counter', ok', gathered', stored'⟩
    · left
      exact ⟨.inr leaves, (congrArg Outcome.result run).trans failed⟩
    · right
      have state := congrArg Outcome.state run
      exact ⟨not_or.mpr ⟨stays, fits⟩, counter', (congrArg Outcome.result run).trans ok', gathered',
        state ▸ stored'.perm (List.perm_append_singleton _ _)⟩

/-- A component and all visited ones below it store their sums, unless one of them overflows. -/
theorem gather_sumsUp (apart : input ≠ output)
    (readable : catalog.Declares input (Whole.valueType τ))
    (storable : catalog.Declares output (Whole.valueType τ)) (wellFormed : c.WellFormed)
    (allowed : limit.Allows c.kind) (nodup : ((c.visited limit).map key).Nodup) (depth : Nat)
    {s : Counted (Store catalog)} (ready : Ready start input output (c.visited limit) s) :
    SumsUp start limit input output (c.Overflows limit start input τ)
      (c.summands limit start input) (c.visited limit) s
      (gather [(sum input output : Formula (SumCounter τ))] limit traced c depth s) := by
  induction c generalizing depth s with
  | node profile children ih =>
    have below : ∀ child ∈ children, child.WellFormed := by
      cases wellFormed with
      | node _ below => exact below
    rw [visited_eq_cons allowed, List.map_cons, List.nodup_cons] at nodup
    rw [visited_eq_cons allowed] at ready ⊢
    obtain ⟨fresh, nodup⟩ := nodup
    have each : ∀ child ∈ children, ((child.visited limit).map key).Nodup := by
      rw [List.map_flatMap, List.nodup_flatMap] at nodup
      exact nodup.1
    have counters : SumsUp start limit input output _ _ _ s
        (gatherAll [(sum input output : Formula (SumCounter τ))] limit traced children (depth + 1)
          [⟨input, none⟩] s) :=
      gatherAll_sumsUp apart below
        (fun child mem entered depth s ready =>
          ih child mem (below child mem) entered (each child mem) depth ready)
        nodup (depth + 1) (SumCounter.gathered_nil input)
        (ready.mono (List.subset_cons_self _ _))
    rw [List.sum_nil, List.nil_append] at counters
    refine SumsUp.congr ?_ (overflows_node_iff below allowed).symm
    exact gather_node_sumsUp apart readable storable (exactSum?_summands wellFormed) fresh ready
      counters

end Runs

/-- A sum formula on a well-formed tree fails exactly if a partial sum leaves the type at one of the
components visited. Otherwise it stores the exact sums, where there are any, and nothing else. -/
theorem rollUp_sum_exact (τ : Type) [Whole τ] (tree : ComponentTree)
    (wellFormed : tree.root.WellFormed) (limit : DepthLimit)
    (allowed : limit.Allows tree.root.kind) (traced : Bool) (start : Store catalog)
    {input output : String} (apart : input ≠ output)
    (readable : catalog.Declares input (Whole.valueType τ))
    (storable : catalog.Declares output (Whole.valueType τ))
    (free : ∀ c ∈ tree.components, limit.Allows c.kind → start.find? c.key output = none) :
    let outcome := rollUp [(sum input output : Formula (SumCounter τ))] limit traced tree.root start
    let visited := tree.components.filter fun c => limit.Allows c.kind
    (outcome.result = .error (.sumOverflow input) ↔ tree.root.Overflows limit start input τ) ∧
      (¬ tree.root.Overflows limit start input τ →
        outcome.result = .ok (visited.countP fun c => (c.leafSum? limit start input).isSome) ∧
          (∀ c ∈ visited, (outcome.state.find? c.key output).map (fun m => m.value.whole?) =
            (c.leafSum? limit start input).map some) ∧
          ∀ component metric, (metric = output → component ∉ visited.map key) →
            outcome.state.find? component metric = start.find? component metric) := by
  intro outcome visited
  have order : tree.root.visited limit = visited := visited_eq_filter limit wellFormed
  have ready : Ready start input output (tree.root.visited limit) ⟨start, 0⟩ := by
    refine ⟨fun _ => rfl, ?_⟩
    intro c mem
    exact free c ((visited_sublist_preorder limit tree.root).subset mem)
      (allows_of_mem_visited mem)
  obtain ⟨result, state⟩ : outcome.result = _ ∧ outcome.state = _ := rollUp_apply allowed start
  rw [result, state]
  have sums : SumsUp start limit input output _ _ _ _
      (gather [(sum input output : Formula (SumCounter τ))] limit traced tree.root 0 _) :=
    gather_sumsUp apart readable storable wellFormed allowed (tree.nodup_visited limit)
      0 ready
  rw [order] at sums
  rcases sums with ⟨overflows, failed⟩ | ⟨stays, counter, ok, -, stored⟩
  · rw [failed]
    exact ⟨iff_of_true rfl overflows, fun stays => absurd overflows stays⟩
  · rw [ok]
    refine ⟨iff_of_false (by simp [Except.map]) stays, fun _ => ⟨?_, stored.stored, ?_⟩⟩
    · rw [stored.counted, Nat.zero_add]
      rfl
    · exact fun component metric untouched => stored.others untouched

end Formula

namespace SumWitnesses

def metrics : Catalog := ⟨[⟨"ncloc", .int, "Lines of code"⟩, ⟨"total", .int, "Total"⟩], by decide⟩

def file (key : String) (reference : Int32) : Component :=
  .node ⟨key, none, key, .file ⟨reference, none, none⟩ {}⟩ []

def tree : ComponentTree :=
  ⟨.node ⟨"P", none, "P", .project ⟨1, none, none⟩⟩ [file "F" 2, file "G" 3], by decide, by decide⟩

/-- One file has two lines and the other has three. -/
def measured : Store metrics :=
  ((∅ : Store metrics).put "F" "ncloc" ⟨"ncloc", .int 2⟩ ⟨_, rfl, rfl, .inr rfl⟩).put
    "G" "ncloc" ⟨"ncloc", .int 3⟩ ⟨_, rfl, rfl, .inr rfl⟩

def run : Outcome (Store metrics) Nat :=
  Formula.rollUp [(Formula.sum "ncloc" "total" : Formula (SumCounter Int32))] .file false tree.root
    measured

theorem wellFormed_file (key : String) (reference : Int32) : (file key reference).WellFormed :=
  .node (by simp) (by simp)

theorem wellFormed_root : tree.root.WellFormed := by
  refine .node (by decide) ?_
  intro child mem
  rcases List.mem_pair.mp mem with rfl | rfl
  · exact wellFormed_file "F" 2
  · exact wellFormed_file "G" 3

/-- The project gets the sum of its two files, which is a sum that fits. -/
theorem rollUp_sum_exact_project :
    tree.root.WellFormed ∧ DepthLimit.file.Allows tree.root.kind ∧ "ncloc" ≠ "total" ∧
      metrics.Declares "ncloc" .int ∧ metrics.Declares "total" .int ∧
      (∀ c ∈ tree.components, DepthLimit.file.Allows c.kind →
        measured.find? c.key "total" = none) ∧
      run.result = .ok 3 ∧ ¬ tree.root.Overflows .file measured "ncloc" Int32 ∧
      (run.state.find? "P" "total").map (fun m => m.value.whole?) = some (some 5) := by
  have allowed : DepthLimit.file.Allows tree.root.kind := by decide
  have apart : "ncloc" ≠ "total" := by decide
  have readable : metrics.Declares "ncloc" .int := ⟨_, rfl, rfl⟩
  have storable : metrics.Declares "total" .int := ⟨_, rfl, rfl⟩
  have free : ∀ c ∈ tree.components, DepthLimit.file.Allows c.kind →
      measured.find? c.key "total" = none := by decide +kernel
  have ok : run.result = .ok 3 := by decide +kernel
  obtain ⟨fails, succeeds⟩ := Formula.rollUp_sum_exact Int32 tree wellFormed_root .file allowed
    false measured apart readable storable free
  have stays : ¬ tree.root.Overflows .file measured "ncloc" Int32 := by
    intro overflows
    have failed := ok.symm.trans (fails.mpr overflows)
    contradiction
  have total : tree.root.leafSum? .file measured "ncloc" = some 5 := by decide +kernel
  have stored := (succeeds stays).2.1 tree.root List.mem_cons_self
  rw [total] at stored
  exact ⟨wellFormed_root, allowed, apart, readable, storable, free, ok, stays, stored⟩

end SumWitnesses

end Metrology
