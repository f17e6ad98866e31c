import Metrology.Proofs.Aggregation.Growth
import Metrology.Proofs.Aggregation.Tallies
import Metrology.Proofs.Batches

/-! # Formulas together and one by one

Where no formula makes what another one gathers, every formula comes to storing a batch of measures
that its tallies determine. One crawl for all formulas stores the batches component by component,
crawls for one formula each store them formula by formula; both come to the same.
-/

namespace Metrology.Formula

open Metrology.Action Store Component

variable {κ : Type} {catalog : Catalog}

/-! ## What a formula stores at a component -/

/-- What a formula makes of its counter for the metric of the given key. -/
def made (catalog : Catalog) (c : Component) (f : Formula κ) (counter : κ) (key : String) :
    Option (List (Slot × Measure)) := do
  let metric ← (catalog.get key).toOption
  let measure? ← (f.measure? counter c metric).toOption
  return measure?.toList.map fun measure => (⟨c.key, key⟩, measure)

theorem component_eq_of_made {c : Component} {f : Formula κ} {counter : κ} {key : String}
    {own : List (Slot × Measure)} (makes : made catalog c f counter key = some own)
    {entry : Slot × Measure} (mem : entry ∈ own) : entry.1.component = c.key := by
  obtain ⟨metric, -, makes⟩ := Option.bind_eq_some_iff.mp makes
  obtain ⟨measure?, -, makes⟩ := Option.bind_eq_some_iff.mp makes
  cases makes
  obtain ⟨measure, -, rfl⟩ := List.mem_map.mp mem
  rfl

/-- A formula that makes measures of values makes one where there is a value. -/
theorem eq_of_made {f : Formula κ} {value? : Option Value} {counter : κ} {c : Component}
    {key : String} {own : List (Slot × Measure)}
    (makes : ∀ metric, f.measure? counter c metric = measureOf metric value?)
    (there : made catalog c f counter key = some own) :
    own = value?.toList.map fun value => (⟨c.key, key⟩, ⟨key, value⟩) := by
  obtain ⟨metric, known, there⟩ := Option.bind_eq_some_iff.mp there
  obtain ⟨measure?, given, there⟩ := Option.bind_eq_some_iff.mp there
  cases there
  rw [makes] at given
  cases value? with
  | none =>
    cases given
    rfl
  | some value =>
    rw [measureOf, Measure.of] at given
    split at given
    · cases given
      rw [Catalog.key_of_find? (Catalog.find?_of_get (toOption_eq_some_iff.mp known))]
      rfl
    · contradiction

theorem settled_storeOutput (traced : Bool) (c : Component) (f : Formula κ) (counter : κ)
    (key : String) (s : Counted (Store catalog)) :
    (storeOutput traced c f counter key).settled s =
      storing (made catalog c f counter key) (some ()) s := by
  refine settled_bind_ofExcept_storing fun metric _ => ?_
  refine settled_bind_ofExcept_storing fun measure? _ => ?_
  cases measure? with
  | none => rfl
  | some measure =>
    cases traced <;> cases stored : s.state.add c.key key measure <;>
      simp [emitIf, emit, note, settled, Bind.bind, Action.bind, Pure.pure, Action.pure,
        uncounted, Action.change, stored, countOne, storing, addAll, add?, Except.toOption]

/-! ## Stores that hold the same for the inputs -/

/-- Two stores hold the same for all inputs. -/
def SameInputs (formulas : List (Formula κ)) (inputs : Formula κ → List String)
    (first second : Store catalog) : Prop :=
  ∀ f ∈ formulas, ∀ key ∈ inputs f, ∀ component,
    first.find? component key = second.find? component key

/-- Two stores hold the same for all inputs at these components. -/
def SameInputsAt (formulas : List (Formula κ)) (inputs : Formula κ → List String)
    (components : List Component) (first second : Store catalog) : Prop :=
  ∀ c ∈ components, ∀ f ∈ formulas, ∀ key ∈ inputs f,
    first.find? c.key key = second.find? c.key key

/-- No formula looks into a slot that an earlier one of the components has been given. -/
def ReadsFirst (formulas : List (Formula κ)) (inputs : Formula κ → List String)
    (components : List Component) : Prop :=
  components.Pairwise fun earlier later => earlier.key = later.key →
    ∀ f ∈ formulas, ∀ key ∈ inputs f, ¬ Makes formulas key

section Inputs

variable {formulas : List (Formula κ)} {inputs : Formula κ → List String} {start : Store catalog}

theorem SameInputs.restrict {first second : Store catalog}
    (same : SameInputs formulas inputs first second) (components : List Component) :
    SameInputsAt formulas inputs components first second :=
  fun c _ f mem key isInput => same f mem key isInput c.key

/-- What is stored at some components is not seen at those that come after them. -/
theorem SameInputsAt.of_grows {components rest : List Component} {before after : Store catalog}
    (readsFirst : ReadsFirst formulas inputs (components ++ rest))
    (grows : GrowsIn (SlotsOf components (Makes formulas)) before after)
    (same : SameInputsAt formulas inputs rest before start) :
    SameInputsAt formulas inputs rest after start := by
  intro c mem f isFormula key isInput
  rw [← same c mem f isFormula key isInput]
  apply grows.outside
  rintro ⟨⟨d, earlier, sameKey⟩, makes⟩
  obtain ⟨-, -, across⟩ := List.pairwise_append.mp readsFirst
  exact across d earlier c mem sameKey f isFormula key isInput makes

/-- In a tree nothing is stored at a component before it is fed. -/
theorem readsFirst_visitedUp (tree : ComponentTree) (limit : DepthLimit)
    (formulas : List (Formula κ)) (inputs : Formula κ → List String) :
    ReadsFirst formulas inputs (tree.root.visitedUp limit) :=
  (List.pairwise_map.mp (tree.nodup_visitedUp limit)).imp fun apart same => absurd same apart

end Inputs

/-! ## Batches -/

variable [Counter κ]

section Batches

variable (limit : DepthLimit) (start : Store catalog)

/-- What a formula stores at a component if leaves show what `start` holds. -/
def batch (f : Formula κ) (c : Component) : Option (List (Slot × Measure)) := do
  let counter ← tally limit start f c
  collect f.outputs (made catalog c f counter)

/-- What formulas store at a component, formula by formula. -/
def row (formulas : List (Formula κ)) (c : Component) : Option (List (Slot × Measure)) :=
  collect formulas fun f => batch limit start f c

end Batches

/-! ## Formulas that do not read each other's outputs -/

/-- The formulas look at their inputs only, and none of these is made by one of them. -/
structure Unentangled (formulas : List (Formula κ)) (inputs : Formula κ → List String) :
    Prop where
  reads : ∀ f ∈ formulas, ReadsOnly f (inputs f)
  apart : ∀ f ∈ formulas, ∀ key ∈ inputs f, ¬ Makes formulas key

variable {formulas : List (Formula κ)} {inputs : Formula κ → List String} {limit : DepthLimit}
  {traced : Bool} {start : Store catalog} {s : Counted (Store catalog)}

theorem SameInputs.of_grows {scope : String → String → Prop} {first second : Store catalog}
    (unentangled : Unentangled formulas inputs) (grows : GrowsIn scope first second)
    (inside : ∀ {component metric}, scope component metric → Makes formulas metric)
    (same : SameInputs formulas inputs first start) : SameInputs formulas inputs second start := by
  intro f mem key isInput component
  rw [← same f mem key isInput component]
  exact grows.outside fun written => unentangled.apart f mem key isInput (inside written)

/-- What is fed at a component depends on the inputs there and on nothing else in the store. -/
theorem toOption_feedAt (reads : ∀ f ∈ formulas, ReadsOnly f (inputs f)) {c : Component}
    (same : SameInputsAt formulas inputs [c] s.state start) {counter : Formula κ → κ}
    (counts : ∀ f ∈ formulas, Counts f (counter f)) :
    (feedAt limit s.state c (formulas.map counter)).toOption =
      formulas.mapM fun f => fed limit start c (counter f) := by
  by_cases leaf : limit.IsLeafDepth c.kind
  · rw [feedAt, if_pos leaf, feed, List.mapM_map, toOption_mapM]
    refine mapM_congr_of_mem fun f mem => ?_
    rw [fed, if_pos leaf]
    refine congrArg Except.toOption (reads f mem (counts f mem) fun key isInput => ?_)
    change s.state.get c.key key = start.get c.key key
    rw [Store.get, Store.get, same c List.mem_cons_self f mem key isInput]
  · rw [feedAt, if_neg leaf]
    refine (mapM_eq_some_map fun f _ => ?_).symm
    rw [fed, if_neg leaf]

theorem settled_storeOutputs {counter : Formula κ → κ} {c : Component}
    (tallied : ∀ f ∈ formulas, tally limit start f c = some (counter f))
    (s : Counted (Store catalog)) :
    (storeOutputs traced c formulas (formulas.map counter)).settled s =
      storing (row limit start formulas c) (some ()) s := by
  rw [storeOutputs, ← List.map_prod_left_eq_zip, List.forM_eq_forM, List.forM_map]
  refine settled_forM_storing (fun f mem s => ?_) s
  rw [batch, tallied f mem]
  exact settled_forM_storing (fun key _ s => settled_storeOutput traced c f (counter f) key s) s

/-- Once the children are done a component stores its row. -/
theorem settled_complete (reads : ∀ f ∈ formulas, ReadsOnly f (inputs f)) {profile : Profile}
    {children : List Component}
    (same : SameInputsAt formulas inputs [.node profile children] s.state start)
    {counter : Formula κ → κ}
    (tallied : ∀ f ∈ formulas, tallyAll limit start f children f.counter = some (counter f)) :
    (complete formulas limit traced (.node profile children) (formulas.map counter)).settled s =
      storing (row limit start formulas (.node profile children))
        (formulas.mapM fun f => tally limit start f (.node profile children)) s := by
  have counts : ∀ f ∈ formulas, Counts f (counter f) :=
    fun f mem => counts_of_tallyAll .start (tallied f mem)
  have fedAt : (feedAt limit s.state (.node profile children) (formulas.map counter)).toOption =
      formulas.mapM fun f => tally limit start f (.node profile children) := by
    simp only [toOption_feedAt reads same counts, tally_node, mapM_bind_of_some tallied]
  rw [← fedAt]
  change (Action.ofExcept (feedAt limit s.state (.node profile children) (formulas.map counter)) >>=
    fun fed => storeOutputs traced _ formulas fed >>= fun _ => pure fed).settled s = _
  refine settled_bind_ofExcept (fun counters there => ?_) id
  rw [there]
  rw [fedAt] at there
  obtain ⟨counter', rfl, tallied⟩ := exists_map_of_mapM_eq_some counter there
  exact settled_bind_pure (settled_storeOutputs tallied s) (by simp) _

/-! ## Crawls as batches -/

theorem toOption_fold (counter child : Formula κ → κ) :
    (fold (formulas.map counter) (formulas.map child)).toOption =
      formulas.mapM fun f => ((Counter.aggregate (child f)).after (counter f)).toOption := by
  rw [fold, List.zip_map', List.mapM_map, toOption_mapM]
  rfl

/-- A crawl from this component comes to storing the rows of the components it visits. -/
def CrawlStores (formulas : List (Formula κ)) (inputs : Formula κ → List String)
    (limit : DepthLimit) (traced : Bool) (start : Store catalog) (c : Component) : Prop :=
  ∀ (depth : Nat) (s : Counted (Store catalog)), ReadsFirst formulas inputs (c.visitedUp limit) →
    SameInputsAt formulas inputs (c.visitedUp limit) s.state start →
      (gather formulas limit traced c depth).settled s =
        storing (collect (c.visitedUp limit) (row limit start formulas))
          (formulas.mapM fun f => tally limit start f c) s

theorem slotsOf_visitedUp {c : Component} {metrics : String → Prop} {component metric : String}
    (slot : SlotsOf (c.visited limit) metrics component metric) :
    SlotsOf (c.visitedUp limit) metrics component metric := by
  obtain ⟨⟨d, visited, same⟩, isMetric⟩ := slot
  exact ⟨⟨d, (visitedUp_perm_visited limit c).mem_iff.mpr visited, same⟩, isMetric⟩

theorem settled_gatherAll {cs : List Component}
    (each : ∀ c ∈ cs, limit.Allows c.kind → CrawlStores formulas inputs limit traced start c)
    (depth : Nat) (counter : Formula κ → κ)
    (readsFirst : ReadsFirst formulas inputs (cs.flatMap (visitedUp limit)))
    (same : SameInputsAt formulas inputs (cs.flatMap (visitedUp limit)) s.state start) :
    (gatherAll formulas limit traced cs depth (formulas.map counter)).settled s =
      storing (collect (cs.flatMap (visitedUp limit)) (row limit start formulas))
        (formulas.mapM fun f => tallyAll limit start f cs (counter f)) s := by
  induction cs generalizing counter s with
  | nil =>
    rw [mapM_eq_some_map fun f _ => tallyAll.eq_1 limit start f (counter f)]
    rfl
  | cons c cs ih =>
    rw [List.flatMap_cons] at readsFirst same ⊢
    obtain ⟨own, others, -⟩ := List.pairwise_append.mp readsFirst
    have here := fun d mem => same d (List.mem_append_left _ mem)
    have there := fun d mem => same d (List.mem_append_right _ mem)
    have rest := fun d mem => each d (List.mem_cons_of_mem _ mem)
    by_cases allowed : limit.Allows c.kind
    · have keeps : Keeps (@CountedGrowsIn catalog (SlotsOf (c.visitedUp limit) (Makes formulas)))
          (gather formulas limit traced c depth) := keeps_gather allowed slotsOf_visitedUp depth
      -- What the child and those below it have stored is not read by their siblings.
      have kept := SameInputsAt.of_grows readsFirst (keeps s) there
      simp only [tallyAll_cons_of_allows allowed]
      rw [gatherAll, if_pos allowed, collect_append]
      refine settled_bind_storing (each c List.mem_cons_self allowed depth s own here)
        (fun below there => ?_) fun missing => ?_
      · obtain ⟨child, rfl, tallied⟩ := exists_map_of_mapM_eq_some counter there
        rw [mapM_bind_of_some tallied]
        refine settled_bind_ofExcept (fun counters there => ?_) fun missing => ?_
        · rw [toOption_fold] at there
          obtain ⟨counter', rfl, grown⟩ := exists_map_of_mapM_eq_some counter there
          rw [mapM_bind_of_some grown]
          exact ih rest counter' others kept
        · rw [toOption_fold] at missing
          exact mapM_bind_of_none missing _
      · exact mapM_bind_of_none missing _
    · rw [gatherAll, if_neg allowed, visitedUp_eq_nil allowed, List.nil_append,
        ih rest counter others there]
      congr 1
      refine mapM_congr_of_mem fun f _ => ?_
      rw [tallyAll, if_neg allowed]

theorem crawlStores (reads : ∀ f ∈ formulas, ReadsOnly f (inputs f)) {c : Component}
    (allowed : limit.Allows c.kind) : CrawlStores formulas inputs limit traced start c := by
  induction c with
  | node profile children ih =>
    intro depth s readsFirst same
    rw [visitedUp_eq_append allowed] at readsFirst same ⊢
    obtain ⟨below, -, -⟩ := List.pairwise_append.mp readsFirst
    have here := fun d mem => same d (List.mem_append_left _ mem)
    have self := fun d mem => same d (List.mem_append_right _ mem)
    rw [gather, settled_bind, settled_emit, pure_bind, collect_append]
    refine settled_bind_storing (settled_gatherAll ih (depth + 1) Formula.counter below here)
      (fun counters there => ?_) fun missing => ?_
    · obtain ⟨counter, rfl, tallied⟩ := exists_map_of_mapM_eq_some Formula.counter there
      have keeps : Keeps (@CountedGrowsIn catalog
            (SlotsOf (children.flatMap (visitedUp limit)) (Makes formulas)))
          (gatherAll formulas limit traced children (depth + 1)
            (formulas.map Formula.counter)) := by
        refine keeps_gatherAll (fun child mem entered => keeps_gather entered fun slot => ?_) _ _
        obtain ⟨⟨d, visited, sameKey⟩, makes⟩ := slotsOf_visitedUp slot
        exact ⟨⟨d, List.mem_flatMap.mpr ⟨child, mem, visited⟩, sameKey⟩, makes⟩
      rw [settled_complete reads (SameInputsAt.of_grows readsFirst (keeps s) self) tallied,
        collect_singleton]
    · simp only [tally_node]
      exact mapM_bind_of_none missing _

/-- Where a counter fails at the root of a crawl a row is missing. -/
theorem collect_row_eq_none {root : Component} (allowed : limit.Allows root.kind)
    (missing : (formulas.mapM fun f => tally limit start f root) = none) :
    collect (root.visitedUp limit) (row limit start formulas) = none := by
  obtain ⟨f, mem, missing⟩ := mapM_eq_none_iff.mp missing
  have self : root ∈ root.visitedUp limit := by
    rw [visitedUp_eq_append allowed]
    exact List.mem_append_right _ List.mem_cons_self
  refine collect_eq_none self (collect_eq_none mem ?_)
  rw [batch, missing]
  rfl

/-- Rolling formulas up comes to storing the rows of all components visited. -/
theorem settled_rollUp_of_readsFirst (reads : ∀ f ∈ formulas, ReadsOnly f (inputs f))
    {root : Component} (readsFirst : ReadsFirst formulas inputs (root.visitedUp limit))
    {store : Store catalog}
    (same : SameInputsAt formulas inputs (root.visitedUp limit) store start) :
    (rollUp formulas limit traced root).settled store =
      storingNumbered (collect (root.visitedUp limit) (row limit start formulas)) store := by
  have quiet : ∀ stored, (Action.emit (.formulasExecuted formulas.length stored) >>= fun _ =>
      (pure stored : Action (Store catalog) Nat)).settled = (pure stored) := by
    intro stored
    rw [settled_bind, settled_emit, pure_bind]
    rfl
  rw [rollUp, settled_bind, funext quiet, bind_pure]
  apply settled_counting_storing
  by_cases allowed : limit.Allows root.kind
  · rw [crawl_eq_gather allowed]
    exact settled_bind_pure (crawlStores reads allowed 0 _ readsFirst same)
      (collect_row_eq_none allowed) ()
  · rw [visitedUp_eq_nil allowed, PathVisitor.crawl,
      if_neg (show ¬ (visitor formulas limit traced).limit.Allows root.kind from allowed)]
    rfl

/-- Where no formula reads what one of them makes the components may stand in any order. -/
theorem Unentangled.readsFirst (unentangled : Unentangled formulas inputs)
    (components : List Component) : ReadsFirst formulas inputs components :=
  List.pairwise_of_forall fun _ _ _ => unentangled.apart

theorem settled_rollUp (unentangled : Unentangled formulas inputs) {store : Store catalog}
    (same : SameInputs formulas inputs store start) (root : Component) :
    (rollUp formulas limit traced root).settled store =
      storingNumbered (collect (root.visitedUp limit) (row limit start formulas)) store :=
  settled_rollUp_of_readsFirst unentangled.reads (unentangled.readsFirst _) (same.restrict _)

/-! ## Runs over trees -/

theorem component_eq_of_row {c : Component} {own : List (Slot × Measure)}
    (there : row limit start formulas c = some own) {entry : Slot × Measure} (mem : entry ∈ own) :
    entry.1.component = c.key := by
  obtain ⟨f, -, batch, stored, mem⟩ := mem_of_collect there mem
  obtain ⟨counter, -, stored⟩ := Option.bind_eq_some_iff.mp stored
  obtain ⟨key, -, own, makes, mem⟩ := mem_of_collect stored mem
  exact component_eq_of_made makes mem

/-- After a run every component visited holds what it held and its row. -/
theorem find?_eq_some_iff_of_rollUp (reads : ∀ f ∈ formulas, ReadsOnly f (inputs f))
    {tree : ComponentTree} {stored : Nat}
    (ran : (rollUp formulas limit traced tree.root start).result = .ok stored) {c : Component}
    (visited : c ∈ tree.root.visited limit) :
    ∃ own, row limit start formulas c = some own ∧ ∀ key measure,
      (rollUp formulas limit traced tree.root start).state.find? c.key key = some measure ↔
        start.find? c.key key = some measure ∨ (⟨c.key, key⟩, measure) ∈ own := by
  have settles := settled_of_ok ran
  rw [settled_rollUp_of_readsFirst reads (readsFirst_visitedUp tree limit formulas inputs)
    fun _ _ _ _ _ _ => rfl] at settles
  obtain ⟨rows, collected, settles⟩ := Option.bind_eq_some_iff.mp settles
  obtain ⟨after, added, settles⟩ := Option.bind_eq_some_iff.mp settles
  obtain ⟨-, same⟩ := Prod.mk.inj (Option.some.inj settles)
  rw [← same]
  have visitedUp := (visitedUp_perm_visited limit tree.root).mem_iff.mpr visited
  obtain ⟨own, there, subset⟩ := subset_of_collect collected visitedUp
  refine ⟨own, there, fun key measure => ?_⟩
  rw [find?_eq_some_iff_of_addAll added]
  refine or_congr_right ⟨fun mem => ?_, fun mem => subset mem⟩
  -- The slot names the component, so the measure is from its row and no other.
  obtain ⟨d, visitedUp', own', there', mem⟩ := mem_of_collect collected mem
  have visited' := (visitedUp_perm_visited limit tree.root).mem_iff.mp visitedUp'
  have sublist := visited_sublist_preorder limit tree.root
  obtain rfl := tree.eq_of_key_eq (sublist.subset visited) (sublist.subset visited')
    (component_eq_of_row there' mem)
  rw [there] at there'
  cases there'
  exact mem

/-! ## One crawl for each formula -/

/-- Rolls formulas up one after the other, each in a crawl of its own, and gives the number of
measures they stored together. -/
def rollUpEach (formulas : List (Formula κ)) (limit : DepthLimit) (traced : Bool)
    (root : Component) : Action (Store catalog) Nat :=
  match formulas with
  | [] => pure 0
  | f :: formulas => do
    let stored ← rollUp [f] limit traced root
    let rest ← rollUpEach formulas limit traced root
    return stored + rest

theorem Unentangled.mono {fewer : List (Formula κ)} (unentangled : Unentangled formulas inputs)
    (subset : fewer ⊆ formulas) : Unentangled fewer inputs := by
  refine ⟨fun f mem => unentangled.reads f (subset mem), fun f mem key isInput => ?_⟩
  rintro ⟨g, isFormula, makes⟩
  exact unentangled.apart f (subset mem) key isInput ⟨g, subset isFormula, makes⟩

/-- Rolling formulas up one after the other comes to storing the batches of each at all components
visited. -/
theorem settled_rollUpEach (unentangled : Unentangled formulas inputs) {fewer : List (Formula κ)}
    (subset : fewer ⊆ formulas) {store : Store catalog}
    (same : SameInputs formulas inputs store start) (root : Component) :
    (rollUpEach fewer limit traced root).settled store =
      storingNumbered (collect fewer fun f =>
        collect (root.visitedUp limit) (batch limit start f)) store := by
  induction fewer generalizing store with
  | nil => rfl
  | cons f fewer ih =>
    have single : [f] ⊆ formulas :=
      fun g mem => subset (List.mem_singleton.mp mem ▸ List.mem_cons_self)
    have grows := keeps_rollUp [f] limit traced root store
    have kept : SameInputs formulas inputs (rollUp [f] limit traced root store).state start := by
      refine same.of_grows unentangled grows ?_
      rintro component metric ⟨-, g, mem, makes⟩
      exact ⟨g, single mem, makes⟩
    rw [rollUpEach, collect_cons]
    refine settled_bind_storingNumbered ?_ (ih (List.subset_of_cons_subset subset) kept)
    have rows : row limit start [f] = batch limit start f := funext fun c => collect_singleton f _
    rw [settled_rollUp (unentangled.mono single) (fun g mem => same g (single mem)) root, rows]

/-- Formulas of the library none of which makes what one of them gathers do the same in one crawl
together and in crawls of their own. Either both fail, or both store as many measures and leave the
same store. -/
theorem rollUp_agrees_rollUpEach (library : ∀ f ∈ formulas, Library f (inputs f))
    (apart : ∀ f ∈ formulas, ∀ g ∈ formulas, ∀ key ∈ f.outputs, key ∉ inputs g)
    (limit : DepthLimit) (traced : Bool) (root : Component) (store : Store catalog) :
    let together := rollUp formulas limit traced root store
    let separate := rollUpEach formulas limit traced root store
    (∃ stored, together.result = .ok stored ∧ separate.result = .ok stored ∧
        together.state = separate.state) ∨
      ∃ fault fault', together.result = .error fault ∧ separate.result = .error fault' := by
  have unentangled : Unentangled formulas inputs := by
    refine ⟨fun f mem => (library f mem).readsOnly, fun g mem key isInput => ?_⟩
    rintro ⟨f, mem', makes⟩
    exact apart f mem' g mem key makes isInput
  refine succeed_or_fail_of_settled_eq (funext fun store => ?_) store
  have same : SameInputs formulas inputs store store := fun _ _ _ _ _ => rfl
  rw [settled_rollUp unentangled same, settled_rollUpEach unentangled (List.Subset.refl _) same]
  exact storingNumbered_congr (collect_interchange _ _ fun c f => batch limit store f c) store

end Metrology.Formula

namespace Metrology.FusionWitnesses

def metrics : Catalog :=
  ⟨[⟨"ncloc", .int, "Lines of code"⟩, ⟨"notes", .int, "Comments"⟩, ⟨"lines", .int, "All lines"⟩,
    ⟨"remarks", .int, "All comments"⟩], by decide⟩

def root : Component :=
  .node ⟨"P", none, "P", .project ⟨1, none, none⟩⟩
    [.node ⟨"F", none, "F", .file ⟨2, none, none⟩ {}⟩ [],
      .node ⟨"G", none, "G", .file ⟨3, none, none⟩ {}⟩ []]

/-- One file has lines and comments, the other has lines only. -/
def measured : Store metrics :=
  (((∅ : Store metrics).put "F" "ncloc" ⟨"ncloc", .int 2⟩ ⟨_, rfl, rfl, .inr rfl⟩).put
    "F" "notes" ⟨"notes", .int 1⟩ ⟨_, rfl, rfl, .inr rfl⟩).put
      "G" "ncloc" ⟨"ncloc", .int 3⟩ ⟨_, rfl, rfl, .inr rfl⟩

def sums : List (Formula (SumCounter Int32)) :=
  [Formula.sum "ncloc" "lines", Formula.sum "notes" "remarks"]

def gathered (f : Formula (SumCounter Int32)) : List String :=
  [f.counter.metric]

/-- Whether a measure is that of five lines. -/
def isFive : Option Measure → Bool
  | some ⟨"lines", .int n⟩ => n == 5
  | _ => false

/-- Three sums of lines and two of comments are stored in one crawl as in two, that of the project
is five lines. -/
theorem rollUp_agrees_rollUpEach_two :
    (∀ f ∈ sums, Formula.Library f (gathered f)) ∧
      (∀ f ∈ sums, ∀ g ∈ sums, ∀ key ∈ f.outputs, key ∉ gathered g) ∧
      (Formula.rollUp sums .file false root measured).result = .ok 5 ∧
      (Formula.rollUpEach sums .file false root measured).result = .ok 5 ∧
      (Formula.rollUp sums .file false root measured).state =
        (Formula.rollUpEach sums .file false root measured).state ∧
      (Formula.rollUp sums .file false root measured).state.find? "P" "lines" =
        some ⟨"lines", .int 5⟩ := by
  have library : ∀ f ∈ sums, Formula.Library f (gathered f) := by
    intro f mem
    rcases List.mem_pair.mp mem with rfl | rfl
    · exact .sum "ncloc" "lines"
    · exact .sum "notes" "remarks"
  have apart : ∀ f ∈ sums, ∀ g ∈ sums, ∀ key ∈ f.outputs, key ∉ gathered g := by
    intro f mem g mem'
    rcases List.mem_pair.mp mem with rfl | rfl <;> rcases List.mem_pair.mp mem' with rfl | rfl <;>
      decide
  have five : (Formula.rollUp sums .file false root measured).result = .ok 5 := by decide +kernel
  have total : (Formula.rollUp sums .file false root measured).state.find? "P" "lines" =
      some ⟨"lines", .int 5⟩ := by
    have found : isFive ((Formula.rollUp sums .file false root measured).state.find? "P"
        "lines") = true := by decide +kernel
    unfold isFive at found
    split at found
    · rename_i held
      rw [held, eq_of_beq found]
    · contradiction
  rcases Formula.rollUp_agrees_rollUpEach library apart .file false root measured with
    ⟨stored, ok, ok', same⟩ | ⟨fault, _, failed, -⟩
  · obtain rfl := Except.ok.inj (ok.symm.trans five)
    exact ⟨library, apart, ok, ok', same, total⟩
  · cases failed.symm.trans five

end Metrology.FusionWitnesses
