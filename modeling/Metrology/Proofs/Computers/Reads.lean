import Metrology.Proofs.Computers.Runs

/-! # What computers read

A computer reads the measures of its own component as they will be at the end of the crawl, since
whoever writes them has run before. Those of the children it reads as they were at the start of the
crawl, since the crawl comes to them later.
-/

namespace Metrology

open Store

variable {catalog : Catalog}

theorem Context.of_measure_eq_ok {context : Context} {store : Store catalog} {metric : String}
    {held : Option Measure} (h : context.measure store metric = .ok held) :
    metric ∈ context.declaration.inputs ∧ store.find? context.component.key metric = held := by
  unfold measure at h
  split at h
  · rename_i declared
    refine ⟨declared, ?_⟩
    unfold Store.get at h
    split at h
    · contradiction
    · exact Except.ok.inj h
  · contradiction

theorem Context.children_eq_ok {context : Context} {store : Store catalog} {key : String}
    {metric : Metric} (known : catalog.find? key = some metric)
    (declared : key ∈ context.declaration.inputs ∨ key ∈ context.declaration.outputs) :
    context.children store key =
      .ok (context.component.children.filterMap fun child => store.find? child.key key) := by
  rw [children, if_pos declared, ofChildren, known]

theorem filterMap_eq_iff_of_le {α β : Type} {f g : α → Option β} {xs : List α}
    (le : ∀ {x b}, f x = some b → g x = some b) :
    xs.filterMap f = xs.filterMap g ↔ ∀ x ∈ xs, g x = f x := by
  constructor
  · intro same
    induction xs with
    | nil => exact fun x mem => absurd mem List.not_mem_nil
    | cons x xs ih =>
      have shorter : (xs.filterMap f).length ≤ (xs.filterMap g).length := by
        rw [List.length_filterMap_eq_countP, List.length_filterMap_eq_countP]
        apply List.countP_mono_left
        intro y _ held
        obtain ⟨b, held⟩ := Option.isSome_iff_exists.mp held
        exact Option.isSome_iff_exists.mpr ⟨b, le held⟩
      cases first : f x with
      | some b =>
        rw [List.filterMap_cons_some first, List.filterMap_cons_some (le first),
          List.cons_inj_right] at same
        exact List.forall_mem_cons.mpr ⟨by rw [first, le first], ih same⟩
      | none =>
        rw [List.filterMap_cons_none first] at same
        cases second : g x with
        | none =>
          rw [List.filterMap_cons_none second] at same
          exact List.forall_mem_cons.mpr ⟨by rw [first, second], ih same⟩
        | some b =>
          rw [List.filterMap_cons_some second] at same
          have length := congrArg List.length same
          rw [List.length_cons] at length
          omega
  · exact fun same => List.filterMap_congr fun x mem => (same x mem).symm

namespace Registry

variable {settings : SettingsSource} {limit : DepthLimit} {traced : Bool}

theorem ok_of_getElem? {earlier later : List Computer} {computer computer' : Computer}
    (h : (earlier ++ computer :: later)[earlier.length]? = some computer') :
    computer' = computer := by
  simpa using h.symm

/-- No computer that runs after one and on its component writes what the one reads and does not
write itself. -/
theorem not_written_later {registry : Registry catalog} {earlier later : List Computer}
    {computer : Computer} (computers : registry.computers = earlier ++ computer :: later)
    {metric : String} (reads : metric ∈ computer.declaration.inputs)
    (notOwn : metric ∉ computer.declaration.outputs) {components : List Component}
    {component : String} : ¬ Written components (computer :: later) component metric := by
  rintro ⟨-, writer, mem, writes⟩
  rcases List.mem_cons.mp mem with rfl | mem
  · exact notOwn writes
  · have ordered := registry.ordered
    rw [computers, List.pairwise_append] at ordered
    have follows := (List.pairwise_cons.mp ordered.2.1).1 writer mem
    exact (follows metric writes).2 reads

/-- A computer that gets to see a measure of its own component, or that there is none, for a metric
it does not write itself, sees what the store holds at the end of the crawl, whether the crawl
succeeds or not. -/
theorem measure_answer_is_final (registry : Registry catalog) (tree : ComponentTree)
    (settings : SettingsSource) (limit : DepthLimit) (traced : Bool) (store : Store catalog)
    {place : Nat} {component metric : String} {held : Option Measure} {computer : Computer}
    (answered : ⟨place, component, .measure metric, .ok held⟩ ∈
      (registry.execute settings limit traced tree.root store).exchanges)
    (asks : registry.computers[place]? = some computer)
    (notOwn : metric ∉ computer.declaration.outputs) :
    (registry.execute settings limit traced tree.root store).state.find? component metric =
      held := by
  obtain ⟨before, c, after, earlier, runs, later, visited, computers, rfl, rfl, asked, -, answer,
    ends⟩ := asked_of_mem_execute answered
  rw [computers] at asks
  obtain rfl := ok_of_getElem? asks
  obtain ⟨reads, found⟩ := Context.of_measure_eq_ok (Except.ok.inj answer)
  rw [← found]
  -- Neither a later computer nor a later component writes to the slot.
  apply ends.outside
  rintro (own | others)
  · exact not_written_later computers reads notOwn own
  · obtain ⟨⟨d, mem, same⟩, -⟩ := others
    have nodup := tree.nodup_visited limit
    rw [visited, List.map_append, List.map_cons, List.nodup_append] at nodup
    have fresh := (List.nodup_cons.mp nodup.2.1).1
    exact fresh (same ▸ List.mem_map_of_mem mem)

/-- When a computer asks for the measures of the children, nothing has been written to them yet. -/
theorem children_not_written {tree : ComponentTree} {limit : DepthLimit}
    {before after : List Component} {c child : Component}
    (visited : tree.root.visited limit = before ++ c :: after) (isChild : child ∈ c.children)
    {others computers : List Computer} {metric : String} :
    ¬ (Written before others child.key metric ∨ Written [c] computers child.key metric) := by
  have sublist := Component.visited_sublist_preorder limit tree.root
  have ordered := (Component.pairwise_not_child tree.nodup_keys).sublist sublist
  rw [visited, List.pairwise_append] at ordered
  rintro (⟨⟨d, mem, same⟩, -⟩ | ⟨⟨d, mem, same⟩, -⟩)
  · exact ordered.2.2 d mem c List.mem_cons_self child isChild same
  · obtain rfl := List.mem_singleton.mp mem
    have inTree : d ∈ tree.root.preorder := sublist.subset (by simp [visited])
    exact Component.child_key_ne_of_nodup tree.nodup_keys inTree isChild same

/-- What a computer reads of the children of its component is what they had at the start. -/
theorem children_answer_is_initial {registry : Registry catalog} {tree : ComponentTree}
    {store : Store catalog} {place : Nat} {c : Component} {metric : String}
    {answer : Except Fault (List Measure)} {computer : Computer} (inTree : c ∈ tree.components)
    (answered : ⟨place, c.key, .children metric, answer⟩ ∈
      (registry.execute settings limit traced tree.root store).exchanges)
    (asks : registry.computers[place]? = some computer)
    (declared : metric ∈ computer.declaration.inputs ∨ metric ∈ computer.declaration.outputs) :
    answer = .ok (c.children.filterMap fun child => store.find? child.key metric) := by
  obtain ⟨before, d, after, earlier, runs, later, visited, computers, rfl, same, asked, starts,
    given, -⟩ := asked_of_mem_execute answered
  rw [computers] at asks
  obtain rfl := ok_of_getElem? asks
  have here : d ∈ tree.components :=
    (Component.visited_sublist_preorder limit tree.root).subset (by simp [visited])
  obtain rfl := ComponentTree.eq_of_key_eq inTree here same
  have contained := registry.known computer (by simp [computers]) metric declared
  obtain ⟨_, known⟩ := Catalog.exists_find?_of_contains contained
  have reads : (contextOf settings traced c computer earlier.length).children asked metric =
    answer := Except.ok.inj given
  rw [Context.children_eq_ok known declared] at reads
  rw [← reads]
  congr 1
  apply List.filterMap_congr
  intro child isChild
  exact starts.outside (children_not_written visited isChild)

/-- What a computer reads of the children of its component is what they have at the end exactly
where the crawl adds no measure of the metric to any of them; for it reads what they had at the
start. -/
theorem children_answer_is_final_iff (registry : Registry catalog) (tree : ComponentTree)
    (settings : SettingsSource) (limit : DepthLimit) (traced : Bool) (store : Store catalog)
    {place : Nat} {c : Component} {metric : String} {answer : Except Fault (List Measure)}
    {computer : Computer} (inTree : c ∈ tree.components)
    (answered : ⟨place, c.key, .children metric, answer⟩ ∈
      (registry.execute settings limit traced tree.root store).exchanges)
    (asks : registry.computers[place]? = some computer)
    (declared : metric ∈ computer.declaration.inputs ∨ metric ∈ computer.declaration.outputs) :
    let final := (registry.execute settings limit traced tree.root store).state
    answer = .ok (c.children.filterMap fun child => store.find? child.key metric) ∧
      (answer = .ok (c.children.filterMap fun child => final.find? child.key metric) ↔
        ∀ child ∈ c.children, final.find? child.key metric = store.find? child.key metric) := by
  intro final
  have initial := children_answer_is_initial inTree answered asks declared
  have grows := keeps_execute registry settings limit traced tree.root store
  refine ⟨initial, ?_⟩
  rw [initial, Except.ok.injEq]
  exact filterMap_eq_iff_of_le grows.kept

end Registry

namespace ReadWitnesses

def metrics : Catalog := ⟨[⟨"ncloc", .int, "Lines of code"⟩, ⟨"big", .bool, "Big"⟩], by decide⟩

/-- Asks for the lines of the children and gives every component seven. -/
def lines : Computer where
  declaration := ⟨∅, Std.ExtTreeSet.ofList ["ncloc"]⟩
  compute _ := do
    let _ ← Consult.children "ncloc"
    Consult.add "ncloc" (.int 7)

/-- Calls a component big that has lines. -/
def size : Computer where
  declaration := ⟨Std.ExtTreeSet.ofList ["ncloc"], Std.ExtTreeSet.ofList ["big"]⟩
  compute _ := do
    let held ← Consult.measure "ncloc"
    Consult.add "big" (.boolean held.isSome)

theorem lines_joins : lines.declaration.objection? metrics [] = none := by decide +kernel

theorem size_joins : size.declaration.objection? metrics [lines.declaration] = none := by
  decide +kernel

def registry : Registry metrics where
  computers := [lines, size]
  known := by
    have first := (Declaration.objection?_eq_none_iff.mp lines_joins).1
    have second := (Declaration.objection?_eq_none_iff.mp size_joins).1
    simp [first, second]
  ordered := by
    have follows := (Declaration.objection?_eq_none_iff.mp size_joins).2
    simpa using follows

def file : Component := .node ⟨"F", none, "F", .file ⟨2, none, none⟩ {}⟩ []

def project : Component := .node ⟨"P", none, "P", .project ⟨1, none, none⟩⟩ [file]

def tree : ComponentTree := ⟨project, by decide, by decide⟩

def run : Outcome (Store metrics) Nat :=
  registry.execute (fun _ => {}) .file false tree.root ∅

/-- Whether `size` was told that the project has seven lines. -/
def readsSeven : Exchange → Bool
  | ⟨1, "P", .measure "ncloc", .ok (some ⟨"ncloc", .int n⟩)⟩ => n == 7
  | _ => false

theorem size_reads_lines :
    ⟨1, "P", .measure "ncloc", .ok (some ⟨"ncloc", .int 7⟩)⟩ ∈ run.exchanges := by
  have found : run.exchanges.any readsSeven = true := by decide +kernel
  obtain ⟨exchange, mem, held⟩ := List.any_eq_true.mp found
  unfold readsSeven at held
  split at held
  · rw [eq_of_beq held] at mem
    exact mem
  · contradiction

/-- Whether `lines` was told that the children of the project have no lines. -/
def readsNone : Exchange → Bool
  | ⟨0, "P", .children "ncloc", .ok []⟩ => true
  | _ => false

theorem lines_reads_children : ⟨0, "P", .children "ncloc", .ok []⟩ ∈ run.exchanges := by
  have found : run.exchanges.any readsNone = true := by decide +kernel
  obtain ⟨exchange, mem, held⟩ := List.any_eq_true.mp found
  unfold readsNone at held
  split at held
  · exact mem
  · contradiction

/-- Whether a measure is that of seven lines. -/
def isSeven : Option Measure → Bool
  | some ⟨"ncloc", .int n⟩ => n == 7
  | _ => false

theorem file_final : run.state.find? "F" "ncloc" = some ⟨"ncloc", .int 7⟩ := by
  have found : isSeven (run.state.find? "F" "ncloc") = true := by decide +kernel
  unfold isSeven at found
  split at found
  · rename_i found'
    rw [found', eq_of_beq found]
  · contradiction

theorem measure_answer_is_final_project :
    ⟨1, "P", .measure "ncloc", .ok (some ⟨"ncloc", .int 7⟩)⟩ ∈ run.exchanges ∧
      registry.computers[1]? = some size ∧ "ncloc" ∉ size.declaration.outputs ∧
      run.state.find? "P" "ncloc" = some ⟨"ncloc", .int 7⟩ := by
  have notOwn : "ncloc" ∉ size.declaration.outputs := by decide +kernel
  exact ⟨size_reads_lines, rfl, notOwn,
    Registry.measure_answer_is_final registry tree _ _ _ _ size_reads_lines rfl notOwn⟩

theorem children_answer_is_final_iff_project :
    project ∈ tree.components ∧ ⟨0, "P", .children "ncloc", .ok []⟩ ∈ run.exchanges ∧
      registry.computers[0]? = some lines ∧
      ("ncloc" ∈ lines.declaration.inputs ∨ "ncloc" ∈ lines.declaration.outputs) ∧
      (.ok [] : Except Fault (List Measure)) =
          .ok (project.children.filterMap fun child =>
            (∅ : Store metrics).find? child.key "ncloc") ∧
      ((.ok [] : Except Fault (List Measure)) =
          .ok (project.children.filterMap fun child => run.state.find? child.key "ncloc") ↔
        ∀ child ∈ project.children,
          run.state.find? child.key "ncloc" = (∅ : Store metrics).find? child.key "ncloc") := by
  have declared : "ncloc" ∈ lines.declaration.inputs ∨ "ncloc" ∈ lines.declaration.outputs :=
    .inr (by decide +kernel)
  have inTree : project ∈ tree.components := List.mem_cons_self
  exact ⟨inTree, lines_reads_children, rfl, declared,
    Registry.children_answer_is_final_iff registry tree (fun _ => {}) .file false ∅ inTree
      lines_reads_children rfl declared⟩

/-- The crawl succeeds and a computer reads no measures of the children of the project, for a metric
of its own under which the only child has a measure at the end. -/
theorem children_answer_not_final :
    run.result = .ok 4 ∧ registry.computers[0]? = some lines ∧
      "ncloc" ∈ lines.declaration.outputs ∧
      ⟨0, "P", .children "ncloc", .ok []⟩ ∈ run.exchanges ∧
      (project.children.filterMap fun child => run.state.find? child.key "ncloc") =
        [⟨"ncloc", .int 7⟩] := by
  refine ⟨by decide +kernel, rfl, by decide +kernel, lines_reads_children, ?_⟩
  exact List.filterMap_cons_some file_final

end ReadWitnesses

end Metrology
