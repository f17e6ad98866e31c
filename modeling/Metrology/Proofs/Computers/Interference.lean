import Metrology.Proofs.Computers.Registration
import Metrology.Proofs.Computers.Sight

/-! # Runs that do not interfere

A run depends on the store only where it may look, and writes only where it may write. Two runs on
one component, neither of which writes what the other declares, can therefore change places, and so
the orders in which computers can be registered all come to the same.
-/

namespace Metrology

open Metrology.Action Store

variable {catalog : Catalog}

namespace Context

/-- A computer writes nothing that one it follows may look at. -/
theorem not_sees_of_follows {context context' : Context}
    (follows : context.declaration.Follows context'.declaration) {component metric : String}
    (writes : context.Writes component metric) : ¬ context'.Sees component metric := by
  have fresh := follows metric writes.2
  rintro ⟨-, reads | writes'⟩
  · exact fresh.2 reads
  · exact fresh.1 writes'

/-- The place of a computer shows in the journal only. -/
theorem settled_consult_place {α : Type} (context : Context) (place : Nat)
    (work : Consultation α) :
    ({ context with computer := place }.consult work : Action (Store catalog) α).settled =
      (context.consult work).settled := by
  induction work with
  | done value => rfl
  | ask question next ih =>
    have same : ({ context with computer := place }.answer question :
        Action (Store catalog) question.Answer) = context.answer question := by
      cases question <;> rfl
    simp only [consult, settled_bind, settled_note, pure_bind, same, ih]
  | remark body next ih => simp only [consult, settled_bind, settled_note, pure_bind, ih]

theorem settled_run_place {α : Type} (context : Context) (place : Nat) (work : Consult α) :
    ({ context with computer := place }.run work : Action (Store catalog) α).settled =
      (context.run work).settled := by
  rw [run, run, settled_bind, settled_bind, settled_consult_place]

end Context

/-! ## Changing places -/

/-- Two actions can change places if neither writes where the other looks. -/
theorem settled_swap {sees sees' writes writes' : String → String → Prop}
    {x y : Action (Store catalog) Unit}
    (keeps : Keeps (GrowsIn writes) x) (respects : Respects (AgreeIn sees) x)
    (keeps' : Keeps (GrowsIn writes') y) (respects' : Respects (AgreeIn sees') y)
    (own : ∀ {component metric}, writes component metric → sees component metric)
    (own' : ∀ {component metric}, writes' component metric → sees' component metric)
    (apart : ∀ {component metric}, writes component metric → ¬ sees' component metric)
    (apart' : ∀ {component metric}, writes' component metric → ¬ sees component metric) :
    (x.settled >>= fun _ => y.settled) = (y.settled >>= fun _ => x.settled) := by
  funext s
  change (x.settled s).bind (fun p => y.settled p.2) = (y.settled s).bind fun p => x.settled p.2
  have unseen : AgreeIn sees (y s).state s := fun seen =>
    (keeps' s).outside fun written => apart' written seen
  have unseen' : AgreeIn sees' (x s).state s := fun seen =>
    (keeps s).outside fun written => apart written seen
  obtain ⟨same, -, agree⟩ := respects _ _ unseen
  obtain ⟨same', -, agree'⟩ := respects' _ _ unseen'
  cases first : (x s).result with
  | error fault =>
    rw [settled_of_error first, Option.bind_none]
    cases second : (y s).result with
    | error fault' => rw [settled_of_error second, Option.bind_none]
    | ok _ =>
      rw [settled_of_ok second, Option.bind_some, settled_of_error (same.trans first)]
  | ok _ =>
    rw [settled_of_ok first, Option.bind_some]
    cases second : (y s).result with
    | error fault' =>
      rw [settled_of_error second, Option.bind_none, settled_of_error (same'.trans second)]
    | ok _ =>
      rw [settled_of_ok second, Option.bind_some, settled_of_ok (same.trans first),
        settled_of_ok (same'.trans second)]
      congr 2
      apply ext_find?
      intro component metric
      -- At most one of the two writes the slot, and it writes the same before and after the other.
      by_cases written : writes component metric
      · have free : ¬ writes' component metric := fun written' => apart' written' (own written)
        rw [(keeps' _).outside free, agree (own written)]
      · by_cases written' : writes' component metric
        · rw [agree' (own' written'), (keeps _).outside written]
        · rw [(keeps' _).outside written', (keeps _).outside written, (keeps _).outside written,
            (keeps' _).outside written']

section Loops

variable {m : Type → Type} [Monad m] [LawfulMonad m] {α : Type} {f : α → m Unit}

/-- What can change places with all before it can come first. -/
theorem forM_move_front {before after : List α} {x : α}
    (swap : ∀ y ∈ before, (f y >>= fun _ => f x) = (f x >>= fun _ => f y)) :
    forM (before ++ x :: after) f = (f x >>= fun _ => forM (before ++ after) f) := by
  induction before with
  | nil => rw [List.nil_append, List.nil_append, List.forM_cons]
  | cons y before ih =>
    have swapped := swap y List.mem_cons_self
    rw [List.cons_append, List.forM_cons, ih fun z mem => swap z (List.mem_cons_of_mem _ mem),
      ← bind_assoc, swapped, bind_assoc, List.cons_append, List.forM_cons]

/-- Two loops over the same items do the same if `R` orders the items in both, and items that `R`
leaves unordered can change places. -/
theorem forM_eq_of_perm {R : α → α → Prop} {xs ys : List α} (perm : xs.Perm ys)
    (ordered : xs.Pairwise R) (ordered' : ys.Pairwise R)
    (swap : ∀ x y, R x y → R y x → (f x >>= fun _ => f y) = (f y >>= fun _ => f x)) :
    forM xs f = forM ys f := by
  induction xs generalizing ys with
  | nil => rw [List.nil_perm.mp perm]
  | cons x xs ih =>
    obtain ⟨before, after, rfl⟩ := List.append_of_mem (perm.subset List.mem_cons_self)
    have rest : xs.Perm (before ++ after) := (perm.trans List.perm_middle).cons_inv
    obtain ⟨first, ordered⟩ := List.pairwise_cons.mp ordered
    have sublist : (before ++ after).Sublist (before ++ x :: after) :=
      (List.sublist_cons_self x after).append_left before
    have front : ∀ y ∈ before, (f y >>= fun _ => f x) = (f x >>= fun _ => f y) := by
      intro y mem
      apply swap
      · exact (List.pairwise_append.mp ordered').2.2 y mem x List.mem_cons_self
      · exact first y (rest.mem_iff.mpr (List.mem_append_left _ mem))
    -- What is left of `ys` without `x` is a permutation of the rest of `xs`.
    rw [List.forM_cons, forM_move_front front, ih rest ordered (ordered'.sublist sublist)]

end Loops

namespace Registry

variable {settings : SettingsSource} {limit : DepthLimit} {traced : Bool}

/-- What remains of a run, in whichever place its computer is registered. -/
theorem settled_runComputer (c : Component) (computer : Computer) (place : Nat)
    (s : Counted (Store catalog)) :
    (runComputer settings traced c computer place).settled s =
      (((contextOf settings traced c computer 0).run (computer.compute c)).settled s.state).map
        fun ran => ((), ⟨ran.2, s.count + 1⟩) := by
  have anywhere : (contextOf settings traced c computer place).run (computer.compute c) =
      ({ contextOf settings traced c computer 0 with computer := place }.run
        (computer.compute c) : Action (Store catalog) Unit) := rfl
  rw [← Context.settled_run_place _ place, ← anywhere]
  cases done : ((contextOf settings traced c computer place).run
    (computer.compute c) s.state).result with
  | ok result =>
    have done' : (((contextOf settings traced c computer place).run
      (computer.compute c)).uncounted s).result = .ok result := done
    have ran : (runComputer settings traced c computer place s).result = .ok () := by
      rw [runComputer_eq, bind_apply_ok _ done']
      rfl
    rw [settled_of_ok done, settled_of_ok ran, runComputer_eq, bind_apply_ok _ done']
    rfl
  | error fault =>
    have done' : (((contextOf settings traced c computer place).run
      (computer.compute c)).uncounted s).result = .error fault := done
    have failed : (runComputer settings traced c computer place s).result = .error fault := by
      rw [runComputer_eq, bind_apply_error _ done']
    rw [settled_of_error done, settled_of_error failed, Option.map_none]

/-- Computers of which neither writes what the other declares can change places. -/
theorem settled_runComputer_swap (c : Component) {computer computer' : Computer}
    (follows : computer'.declaration.Follows computer.declaration)
    (follows' : computer.declaration.Follows computer'.declaration) (place place' : Nat) :
    ((runComputer settings traced c computer place :
        Action (Counted (Store catalog)) Unit).settled >>= fun _ =>
      (runComputer settings traced c computer' place').settled) =
    (runComputer settings traced c computer' place').settled >>= fun _ =>
      (runComputer settings traced c computer place).settled := by
  let context := contextOf settings traced c computer 0
  let context' := contextOf settings traced c computer' 0
  have swap : ((context.run (computer.compute c) : Action (Store catalog) Unit).settled >>=
      fun _ => (context'.run (computer'.compute c)).settled) = _ := settled_swap
    (Context.keeps_run context (computer.compute c))
    (Context.respects_run context (computer.compute c))
    (Context.keeps_run context' (computer'.compute c))
    (Context.respects_run context' (computer'.compute c))
    Context.sees_of_writes Context.sees_of_writes
    (Context.not_sees_of_follows follows') (Context.not_sees_of_follows follows)
  funext s
  change ((runComputer settings traced c computer place).settled s).bind
      (fun p => (runComputer settings traced c computer' place').settled p.2) =
    ((runComputer settings traced c computer' place').settled s).bind
      fun p => (runComputer settings traced c computer place).settled p.2
  have swap : ((context.run (computer.compute c)).settled s.state).bind
      (fun p => (context'.run (computer'.compute c)).settled p.2) =
    ((context'.run (computer'.compute c)).settled s.state).bind
      fun p => (context.run (computer.compute c)).settled p.2 := congrFun swap s.state
  have counted := congrArg (Option.map fun ran : Unit × Store catalog =>
    ((), Counted.mk ran.2 (s.count + 1 + 1))) swap
  simpa only [settled_runComputer, Option.bind_map, Option.map_bind, Function.comp_def]
    using counted

/-- The runs on one component, the place of their computers left out. -/
theorem settled_round (registry : Registry catalog) (c : Component) :
    ((registry.visitor settings limit traced).round c).settled =
      forM registry.computers fun computer => (runComputer settings traced c computer 0 :
        Action (Counted (Store catalog)) Unit).settled := by
  have anywhere : ∀ (computer : Computer) (place : Nat),
      (runComputer settings traced c computer place :
        Action (Counted (Store catalog)) Unit).settled =
      (runComputer settings traced c computer 0).settled := by
    intro computer place
    funext s
    rw [settled_runComputer, settled_runComputer]
  rw [round_visitor, settled_bind, settled_emit, pure_bind, runAll, settled_forM]
  conv => rhs; rw [← List.zipIdx_map_fst 0 registry.computers]
  rw [List.forM_map]
  exact forM_congr_of_mem fun run _ => anywhere run.1 run.2

/-- Two registries that accepted the same computers in different orders do the same. On every tree
and every store the crawls both fail, or both succeed with the same number of runs and leave the
same store. -/
theorem execute_agrees_of_perm (tree : ComponentTree) (settings : SettingsSource)
    (limit : DepthLimit) (traced : Bool) (store : Store catalog)
    {computers computers' : List Computer} {registry registry' : Registry catalog}
    (perm : computers.Perm computers')
    (accepted : registerAll computers = .ok registry)
    (accepted' : registerAll computers' = .ok registry') :
    let outcome := registry.execute settings limit traced tree.root store
    let outcome' := registry'.execute settings limit traced tree.root store
    (∃ runs, outcome.result = .ok runs ∧ outcome'.result = .ok runs ∧
        outcome.state = outcome'.state) ∨
      ∃ fault fault', outcome.result = .error fault ∧ outcome'.result = .error fault' := by
  have listed : registry.computers = computers := computers_of_foldlM_register accepted
  have listed' : registry'.computers = computers' := computers_of_foldlM_register accepted'
  have rounds : ∀ c, ((registry.visitor settings limit traced).round c).settled =
      ((registry'.visitor settings limit traced).round c).settled := by
    intro c
    rw [settled_round, settled_round]
    refine forM_eq_of_perm ?_ registry.ordered registry'.ordered ?_
    · rw [listed, listed']
      exact perm
    · exact fun computer computer' follows follows' =>
        settled_runComputer_swap c follows follows' 0 0
  have crawls : ((registry.visitor settings limit traced).crawl tree.root).settled =
      ((registry'.visitor settings limit traced).crawl tree.root).settled := by
    rw [crawl_visitor, crawl_visitor, settled_forM, settled_forM]
    exact forM_congr_of_mem fun c _ => rounds c
  intro outcome outcome'
  simp only [outcome, outcome', execute, result_counting, state_counting]
  rcases succeed_or_fail_of_settled_eq crawls ⟨store, 0⟩ with
    ⟨_, ok, ok', same⟩ | ⟨fault, fault', failed, failed'⟩
  · left
    rw [ok, ok', same]
    exact ⟨_, rfl, rfl, rfl⟩
  · right
    rw [failed, failed']
    exact ⟨fault, fault', rfl, rfl⟩

end Registry

namespace OrderWitnesses

def metrics : Catalog :=
  ⟨[⟨"ncloc", .int, "Lines of code"⟩, ⟨"big", .bool, "Big"⟩, ⟨"nested", .bool, "Nested"⟩],
    by decide⟩

def lines : Computer where
  declaration := ⟨∅, Std.ExtTreeSet.ofList ["ncloc"]⟩
  compute _ := Consult.add "ncloc" (.int 7)

/-- Calls a component big that has lines. -/
def size : Computer where
  declaration := ⟨Std.ExtTreeSet.ofList ["ncloc"], Std.ExtTreeSet.ofList ["big"]⟩
  compute _ := do
    let held ← Consult.measure "ncloc"
    Consult.add "big" (.boolean held.isSome)

/-- Calls a component nested that has children. -/
def nesting : Computer where
  declaration := ⟨∅, Std.ExtTreeSet.ofList ["nested"]⟩
  compute c := Consult.add "nested" (.boolean (! c.children.isEmpty))

def tree : ComponentTree :=
  ⟨.node ⟨"P", none, "P", .project ⟨1, none, none⟩⟩
    [.node ⟨"F", none, "F", .file ⟨2, none, none⟩ {}⟩ []], by decide, by decide⟩

theorem registerAll_eq_ok {computers : List Computer}
    (h : ((Registry.registerAll computers : Except Fault (Registry metrics)) matches .ok _) =
      true) :
    Registry.registerAll computers = .ok (Registry.ofOffers computers : Registry metrics) := by
  split at h
  · rename_i registry accepted
    rw [accepted, Registry.ofOffers, Registry.foldl_offer_of_foldlM_register accepted]
  · contradiction

def run (computers : List Computer) : Outcome (Store metrics) Nat :=
  (Registry.ofOffers computers : Registry metrics).execute (fun _ => {}) .file false tree.root ∅

/-- Whether a measure calls its component big. -/
def isBig : Option Measure → Bool
  | some ⟨"big", .boolean true⟩ => true
  | _ => false

/-- The computer that reads the lines can stand second or third. Either way it runs on both
components as the others do, and finds the lines of the project. -/
theorem execute_agrees_of_perm_three :
    ∃ registry registry' : Registry metrics,
      [lines, size, nesting].Perm [lines, nesting, size] ∧
      Registry.registerAll [lines, size, nesting] = .ok registry ∧
      Registry.registerAll [lines, nesting, size] = .ok registry' ∧
      let outcome := registry.execute (fun _ => {}) .file false tree.root ∅
      let outcome' := registry'.execute (fun _ => {}) .file false tree.root ∅
      outcome.result = .ok 6 ∧ outcome'.result = .ok 6 ∧ outcome.state = outcome'.state ∧
        outcome'.state.find? "P" "big" = some ⟨"big", .boolean true⟩ := by
  have perm : [lines, size, nesting].Perm [lines, nesting, size] := (List.Perm.swap _ _ _).cons _
  have accepted : Registry.registerAll [lines, size, nesting] =
      .ok (Registry.ofOffers [lines, size, nesting] : Registry metrics) :=
    registerAll_eq_ok (by decide +kernel)
  have accepted' : Registry.registerAll [lines, nesting, size] =
      .ok (Registry.ofOffers [lines, nesting, size] : Registry metrics) :=
    registerAll_eq_ok (by decide +kernel)
  have six : (run [lines, size, nesting]).result = .ok 6 := by decide +kernel
  have big : (run [lines, nesting, size]).state.find? "P" "big" =
      some ⟨"big", .boolean true⟩ := by
    have found : isBig ((run [lines, nesting, size]).state.find? "P" "big") = true := by
      decide +kernel
    unfold isBig at found
    split at found
    · assumption
    · contradiction
  refine ⟨_, _, perm, accepted, accepted', ?_⟩
  rcases Registry.execute_agrees_of_perm tree (fun _ => {}) .file false ∅ perm accepted accepted'
    with ⟨runs, ok, ok', same⟩ | ⟨fault, -, failed, -⟩
  · obtain rfl := Except.ok.inj (ok.symm.trans six)
    exact ⟨ok, ok', same, big⟩
  · cases failed.symm.trans six

end OrderWitnesses

end Metrology
