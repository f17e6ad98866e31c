import Metrology.Proofs.Paths
import Metrology.Proofs.RelatedCrawls
import Metrology.Proofs.SharedWalk

/-! # Interrupted crawls

A crawl ends with the first call that fails. What a visitor does up to that call is what it would do
if the call succeeded, and what it would do then it does not do any more. To say so a crawl is
compared with that of the visitor that is pardoned: it does the same, but for one call, which
succeeds although it fails.
-/

namespace Metrology

open Metrology.Action

variable {σ τ ε κ α β : Type}

/-! ## Records of what was done -/

section Records

variable (log : τ → List κ) (fault? : κ → Option Fault)

/-- How an action ends that has made these entries: without a fault in any of them, or with the
fault of the last one. -/
def EndsWith (made : List κ) : Except Fault α → Prop
  | .ok _ => ∀ entry ∈ made, fault? entry = none
  | .error fault => ∃ earlier last, made = earlier ++ [last] ∧ fault? last = some fault ∧
      ∀ entry ∈ earlier, fault? entry = none

/-- The action adds to the record, and its entries tell how it ends. -/
def Reports (x : Action τ α) : Prop :=
  ∀ s, ∃ made, log (x s).state = log s ++ made ∧ EndsWith fault? made (x s).result

theorem compatible_reports : Compatible fun (x _ : Action τ _) => Reports log fault? x where
  pure _ _ := ⟨[], (List.append_nil _).symm, by simp [EndsWith]⟩
  emit _ _ := ⟨[], (List.append_nil _).symm, by simp [EndsWith, Action.emit, Action.note]⟩
  bind {α β x _ f _} first next s := by
    obtain ⟨made, logged, ends⟩ := first s
    cases result : (x s).result with
    | error fault =>
      rw [result] at ends
      rw [bind_apply_error f result]
      exact ⟨made, logged, ends⟩
    | ok a =>
      rw [result] at ends
      obtain ⟨made', logged', ends'⟩ := next a (x s).state
      rw [bind_apply_ok f result]
      refine ⟨made ++ made', by rw [logged', logged, List.append_assoc], ?_⟩
      cases result' : (f a (x s).state).result with
      | ok b =>
        rw [result'] at ends'
        intro entry mem
        exact (List.mem_append.mp mem).elim (ends entry) (ends' entry)
      | error fault =>
        rw [result'] at ends'
        obtain ⟨earlier, last, rfl, failed, fine⟩ := ends'
        refine ⟨made ++ earlier, last, (List.append_assoc ..).symm, failed, ?_⟩
        intro entry mem
        exact (List.mem_append.mp mem).elim (ends entry) (fine entry)

/-! ## Going on where another action fails -/

variable (pardon : κ → κ) (n : Nat)

/-- The entry number `n`, if there is one yet, is not that of a fault. -/
def Clear (s : τ) : Prop :=
  ∀ entry, (log s)[n]? = some entry → fault? entry = none

/-- The second action does what the first one does, unless the first one fails with the entry number
`n`. Then the second has made the same entries before, has this one pardoned, and may go on. -/
structure Resumes (x y : Action τ α) : Prop where
  grows : ∀ s, log s <+: log (y s).state
  agrees : ∀ s, Clear log fault? n s →
    (x s = y s ∧ Clear log fault? n (x s).state) ∨
      ∃ fault earlier last, (x s).result = .error fault ∧
        log (x s).state = earlier ++ [last] ∧ earlier.length = n ∧
        earlier ++ [pardon last] <+: log (y s).state

theorem grows_bind {y : Action τ α} {g : α → Action τ β}
    (next : ∀ a s, log s <+: log (g a s).state) (s : τ) :
    log (y s).state <+: log ((y >>= g) s).state := by
  cases result : (y s).result with
  | ok a =>
    rw [bind_apply_ok g result]
    exact next a _
  | error fault =>
    rw [bind_apply_error g result]

theorem compatible_resumes :
    Compatible fun (x y : Action τ _) => Resumes log fault? pardon n x y where
  pure _ := ⟨fun _ => List.prefix_rfl, fun _ clear => .inl ⟨rfl, clear⟩⟩
  emit _ := ⟨fun _ => List.prefix_rfl, fun _ clear => .inl ⟨rfl, clear⟩⟩
  bind {α β x y f g} first next := by
    have onward := grows_bind log (y := y) fun a => (next a).grows
    refine ⟨fun s => (first.grows s).trans (onward s), fun s clear => ?_⟩
    rcases first.agrees s clear with
      ⟨same, clear'⟩ | ⟨fault, earlier, last, failed, made, number, on⟩
    · cases result : (x s).result with
      | error fault =>
        have result' : (y s).result = .error fault := same ▸ result
        rw [bind_apply_error f result, bind_apply_error g result', same]
        exact .inl ⟨rfl, same ▸ clear'⟩
      | ok a =>
        have result' : (y s).result = .ok a := same ▸ result
        rw [bind_apply_ok f result, bind_apply_ok g result', ← same]
        rcases (next a).agrees _ clear' with ⟨same', clear''⟩ | interrupted
        · exact .inl ⟨by rw [same'], clear''⟩
        · exact .inr interrupted
    · rw [bind_apply_error f failed]
      exact .inr ⟨fault, earlier, last, rfl, made, number, on.trans (onward s)⟩

variable {log fault? pardon n}

/-- An action that makes one entry is resumed by one that does the same, except where it fails with
the entry number `n`. -/
theorem Resumes.of_entry {x y : Action τ α} (entry : τ → κ)
    (made : ∀ s, log (x s).state = log s ++ [entry s])
    (fine : ∀ s a, (x s).result = .ok a → fault? (entry s) = none)
    (same : ∀ s, ¬ ((log s).length = n ∧ ∃ fault, (x s).result = .error fault) → x s = y s)
    (pardoned : ∀ s fault, (log s).length = n → (x s).result = .error fault →
      log (y s).state = log s ++ [pardon (entry s)]) :
    Resumes log fault? pardon n x y := by
  constructor
  · intro s
    by_cases failed : (log s).length = n ∧ ∃ fault, (x s).result = .error fault
    · obtain ⟨number, fault, failed⟩ := failed
      rw [pardoned s fault number failed]
      exact List.prefix_append _ _
    · rw [← same s failed, made]
      exact List.prefix_append _ _
  · intro s clear
    by_cases failed : (log s).length = n ∧ ∃ fault, (x s).result = .error fault
    · obtain ⟨number, fault, failed⟩ := failed
      exact .inr ⟨fault, log s, entry s, failed, made s, number,
        (pardoned s fault number failed).symm ▸ List.prefix_rfl⟩
    · refine .inl ⟨same s failed, fun held there => ?_⟩
      rw [made, List.getElem?_append] at there
      split at there
      · exact clear held there
      · rename_i beyond
        obtain ⟨last, rfl⟩ := List.getElem?_eq_some_iff.mp there
        have number : (log s).length = n := by
          rw [List.length_singleton] at last
          omega
        cases result : (x s).result with
        | ok a => simpa using fine s a result
        | error fault => exact absurd ⟨number, fault, result⟩ failed

/-- An action that starts a record fails if and only if an entry tells of a fault, and this is the
last one. -/
theorem Reports.of_fresh {x : Action τ Unit} (reports : Reports log fault? x) {s : τ}
    (fresh : log s = []) :
    ((x s).result = .ok () ↔ ∀ entry ∈ log (x s).state, fault? entry = none) ∧
      ∀ fault, (x s).result = .error fault → ∃ earlier last,
        log (x s).state = earlier ++ [last] ∧ fault? last = some fault ∧
        ∀ entry ∈ earlier, fault? entry = none := by
  obtain ⟨made, logged, ends⟩ := reports s
  rw [fresh, List.nil_append] at logged
  rw [logged]
  cases result : (x s).result with
  | ok a =>
    rw [result] at ends
    exact ⟨⟨fun _ => ends, fun _ => rfl⟩, fun fault failed => by contradiction⟩
  | error fault =>
    rw [result] at ends
    obtain ⟨earlier, last, rfl, blamed, fine⟩ := ends
    refine ⟨⟨fun ok => by contradiction, fun none => ?_⟩, fun fault' same => ?_⟩
    · rw [none last (by simp)] at blamed
      contradiction
    · obtain rfl := Except.error.inj same
      exact ⟨earlier, last, rfl, blamed, fine⟩

/-- An action that has failed with an entry stands where the one that resumes it goes on. -/
theorem Resumes.of_fresh {x y : Action τ α} {earlier : List κ} {last : κ} {fault : Fault} {s : τ}
    (resumes : Resumes log fault? pardon earlier.length x y) (fresh : log s = [])
    (made : log (x s).state = earlier ++ [last]) (blamed : fault? last = some fault) :
    earlier ++ [pardon last] <+: log (y s).state := by
  have clear : Clear log fault? earlier.length s := by simp [Clear, fresh]
  rcases resumes.agrees s clear with ⟨-, clear'⟩ | ⟨_, earlier', last', -, made', number, on⟩
  · rw [clear' last (by simp [made])] at blamed
    contradiction
  · rw [made] at made'
    obtain ⟨rfl, same⟩ := List.append_inj made' number.symm
    obtain rfl := List.singleton_inj.mp same
    exact on

end Records

/-! ## Visitors of components -/

/-- The fault with which the call ends the crawl, if it does. -/
def Call.fault? {ι : Type} (call : Call ι) : Option Fault :=
  match call.result with
  | .ok () => none
  | .error fault => some fault

theorem Call.fault?_eq_none_iff {ι : Type} {call : Call ι} :
    call.fault? = none ↔ call.result = .ok () := by
  unfold fault?
  cases call.result <;> simp

theorem Call.fault?_eq_some_iff {ι : Type} {call : Call ι} {fault : Fault} :
    call.fault? = some fault ↔ call.result = .error fault := by
  unfold fault?
  cases call.result <;> simp

/-- The call as if it had succeeded. -/
def Call.pardoned {ι : Type} (call : Call ι) : Call ι :=
  { call with result := .ok () }

namespace Visitor

variable (v : Visitor σ)

/-- The visitor, with a record of its calls. -/
def observed : Visitor (Recorded fun _ : Unit => σ) :=
  recorded (fun _ => v) ()

/-- The visitor, with a record of its calls. Call number `n` does what it does, but it succeeds. -/
def pardoned (n : Nat) : Visitor (Recorded fun _ : Unit => σ) where
  order := v.order
  limit := v.limit
  call callback c s :=
    let outcome := v.observed.call callback c s
    if s.calls.length = n then
      ⟨.ok (), ⟨outcome.state.states, s.calls ++ [⟨(), callback, c, .ok ()⟩]⟩, outcome.journal⟩
    else outcome

theorem reports_crawl (root : Component) :
    Reports Recorded.calls Call.fault? (v.observed.crawl root) := by
  refine related_crawl (w := v.observed) (compatible_reports Recorded.calls Call.fault?) rfl rfl
    (fun callback c s => ?_) root
  refine ⟨[⟨(), callback, c, (v.observed.call callback c s).result⟩], rfl, ?_⟩
  cases result : (v.observed.call callback c s).result with
  | ok a => simp [EndsWith, Call.fault?]
  | error fault => exact ⟨[], _, rfl, rfl, by simp⟩

theorem resumes_crawl (n : Nat) (root : Component) :
    Resumes Recorded.calls Call.fault? Call.pardoned n (v.observed.crawl root)
      ((v.pardoned n).crawl root) := by
  refine related_crawl (v := v.observed) (w := v.pardoned n)
    (compatible_resumes Recorded.calls Call.fault? Call.pardoned n) rfl rfl
    (fun callback c => ?_) root
  let made s : Call Unit := ⟨(), callback, c, (v.observed.call callback c s).result⟩
  refine Resumes.of_entry made (fun _ => rfl) (fun s a ok => ?_) (fun s fits => ?_)
    (fun s fault number _ => ?_)
  · simp only [Call.fault?, made, ok]
  · change _ = if s.calls.length = n then _ else v.observed.call callback c s
    by_cases number : s.calls.length = n
    · rw [if_pos number]
      cases result : (v.observed.call callback c s).result with
      | ok a =>
        simp only [observed, recorded] at result ⊢
        rw [result]
      | error fault => exact absurd ⟨number, fault, result⟩ fits
    · rw [if_neg number]
  · change Recorded.calls (Outcome.state (if s.calls.length = n then _ else _)) = _
    rw [if_pos number]
    rfl

end Visitor

/-! ## Visitors of paths -/

theorem Deed.fault?_eq_some_iff {deed : Deed ε} {fault : Fault} :
    deed.fault? = some fault ↔ ∃ callback path, deed = .called callback path (.error fault) := by
  rcases deed with ⟨c, element⟩ | ⟨callback, path, _ | _⟩ <;> simp [fault?]

/-- The deed as if the call had succeeded and left these elements. -/
def Deed.pardoned (left : Ends ε) : Deed ε → Deed ε
  | .created c element => .created c element
  | .called callback path _ => .called callback path (.ok left)

namespace PathVisitor

variable (v : PathVisitor σ ε)

/-- The visitor, with a record of what it does. If deed number `n` is a call it does what it does,
but it succeeds; where it would fail it leaves the given elements. -/
def pardoned (n : Nat) (left : Ends ε) : PathVisitor (Observed σ ε) ε where
  order := v.order
  limit := v.limit
  create := v.observed.create
  call callback path s :=
    let outcome := v.observed.call callback path s
    let ends := outcome.result.toOption.getD left
    if s.deeds.length = n then
      ⟨.ok ends, ⟨outcome.state.state, s.deeds ++ [.called callback path (.ok ends)]⟩,
        outcome.journal⟩
    else outcome

theorem reports_crawl (root : Component) :
    Reports Observed.deeds Deed.fault? (v.observed.crawl root) := by
  refine related_crawl (w := v.observed) (compatible_reports Observed.deeds Deed.fault?) rfl rfl
    (fun c s => ?_) (fun callback path s => ?_) root
  · exact ⟨[.created c (v.create c s.state).1], rfl, by simp [EndsWith, enter, Deed.fault?]⟩
  · refine ⟨[.called callback path (v.observed.call callback path s).result], rfl, ?_⟩
    cases result : (v.observed.call callback path s).result with
    | ok a => simp [EndsWith, Deed.fault?]
    | error fault => exact ⟨[], _, rfl, rfl, by simp⟩

theorem resumes_crawl (n : Nat) (left : Ends ε) (root : Component) :
    Resumes Observed.deeds Deed.fault? (Deed.pardoned left) n (v.observed.crawl root)
      ((v.pardoned n left).crawl root) := by
  refine related_crawl (v := v.observed) (w := v.pardoned n left)
    (compatible_resumes Observed.deeds Deed.fault? (Deed.pardoned left) n) rfl rfl
    (fun c => ?_) (fun callback path => ?_) root
  · refine Resumes.of_entry (fun s => .created c (v.create c s.state).1) (fun _ => rfl)
      (fun _ _ _ => rfl) (fun _ _ => rfl) (fun s fault _ failed => ?_)
    contradiction
  · let made s : Deed ε := .called callback path (v.observed.call callback path s).result
    refine Resumes.of_entry made (fun _ => rfl) (fun s ends ok => ?_)
      (fun s fits => ?_) (fun s fault number failed => ?_)
    · simp only [Deed.fault?, made, ok]
    · change _ = if s.deeds.length = n then _ else v.observed.call callback path s
      by_cases number : s.deeds.length = n
      · rw [if_pos number]
        cases result : (v.observed.call callback path s).result with
        | ok ends =>
          simp only [observed] at result ⊢
          rw [result]
          rfl
        | error fault => exact absurd ⟨number, fault, result⟩ fits
      · rw [if_neg number]
    · change Observed.deeds (Outcome.state (if s.deeds.length = n then _ else _)) = _
      rw [if_pos number, failed]
      rfl

end PathVisitor

/-! ## Both crawls -/

/-- A crawl succeeds if and only if no call it has made fails. One that fails does so with the
fault of its last call, the only one that fails. All that was done is then a first part of what the
visitor would have done with that call pardoned, and ends with this call; for a visitor of paths
this holds whatever elements the pardoned call leaves. -/
theorem crawls_end_with_first_fault (root : Component) :
    (∀ (σ : Type) (v : Visitor σ) (s : σ),
      let crawled := v.observed.crawl root ⟨fun _ => s, []⟩
      crawled.result = (v.crawl root s).result ∧ crawled.state.states () = (v.crawl root s).state ∧
      ((v.crawl root s).result = .ok () ↔
        ∀ call ∈ crawled.state.calls, call.result = .ok ()) ∧
      ∀ fault, (v.crawl root s).result = .error fault →
        ∃ earlier callback c, crawled.state.calls = earlier ++ [⟨(), callback, c, .error fault⟩] ∧
          (∀ call ∈ earlier, call.result = .ok ()) ∧
          earlier ++ [⟨(), callback, c, .ok ()⟩] <+:
            ((v.pardoned earlier.length).crawl root ⟨fun _ => s, []⟩).state.calls) ∧
    ∀ (σ ε : Type) (v : PathVisitor σ ε) (s : σ),
      let crawled := v.observed.crawl root ⟨s, []⟩
      crawled.result = (v.crawl root s).result ∧ crawled.state.state = (v.crawl root s).state ∧
      ((v.crawl root s).result = .ok () ↔ ∀ deed ∈ crawled.state.deeds, deed.fault? = none) ∧
      ∀ fault, (v.crawl root s).result = .error fault →
        ∃ (earlier : List (Deed ε)) (callback : Callback) (path : Path ε),
          crawled.state.deeds = earlier ++ [.called callback path (.error fault)] ∧
          (∀ deed ∈ earlier, deed.fault? = none) ∧
          ∀ left, earlier ++ [.called callback path (.ok left)] <+:
            ((v.pardoned earlier.length left).crawl root ⟨s, []⟩).state.deeds := by
  constructor
  · intro σ v s crawled
    obtain ⟨result, state⟩ := Visitor.crawl_recorded_agrees (fun _ : Unit => v) () root
      ⟨fun _ => s, []⟩
    obtain ⟨succeeds, fails⟩ := (v.reports_crawl root).of_fresh (s := ⟨fun _ => s, []⟩) rfl
    simp only [Call.fault?_eq_none_iff] at succeeds
    refine ⟨result, state, result ▸ succeeds, fun fault failed => ?_⟩
    obtain ⟨earlier, last, made, blamed, fine⟩ := fails fault (result.trans failed)
    have on := (v.resumes_crawl earlier.length root).of_fresh rfl made blamed
    obtain ⟨_, callback, c, left⟩ := last
    obtain rfl : left = .error fault := Call.fault?_eq_some_iff.mp blamed
    exact ⟨earlier, callback, c, made,
      fun call mem => Call.fault?_eq_none_iff.mp (fine call mem), on⟩
  · intro σ ε v s crawled
    obtain ⟨result, state, -⟩ := v.mirrors_crawl root ⟨s, []⟩
    obtain ⟨succeeds, fails⟩ := (v.reports_crawl root).of_fresh (s := ⟨s, []⟩) rfl
    refine ⟨result, state, result ▸ succeeds, fun fault failed => ?_⟩
    obtain ⟨earlier, last, made, blamed, fine⟩ := fails fault (result.trans failed)
    obtain ⟨callback, path, rfl⟩ := Deed.fault?_eq_some_iff.mp blamed
    refine ⟨earlier, callback, path, made, fine, fun left => ?_⟩
    exact (v.resumes_crawl earlier.length left root).of_fresh rfl made blamed

namespace InterruptionWitnesses

def file : Component := .node ⟨"F", none, "F", .file ⟨2, none, none⟩ {}⟩ []

def root : Component := .node ⟨"P", none, "P", .project ⟨1, none, none⟩⟩ [file]

def third : Fault := .computationFailed "F" "third call"

/-- A visitor that counts its calls and fails with the third one. -/
def down : Visitor Nat where
  order := .preOrder
  limit := .file
  call _ _ count := ⟨if count = 2 then .error third else .ok (), count + 1, []⟩

/-- A visitor of paths that does so on the way back up. -/
def up : PathVisitor Nat Nat where
  order := .postOrder
  limit := .file
  create _ count := (count, count)
  call _ path count := ⟨if count = 2 then .error third else .ok path.ends, count + 1, []⟩

/-- Going down the third call is the general one of the file, and its own one would have come next.
On the way up it is the general one of the project, after both elements were created and both calls
of the file were made. -/
theorem crawls_end_with_first_fault_third :
    (∃ earlier callback c,
      (down.observed.crawl root ⟨fun _ => 0, []⟩).state.calls =
        earlier ++ [⟨(), callback, c, .error third⟩] ∧ earlier.length = 2 ∧ c.key = "F" ∧
      earlier ++ [⟨(), callback, c, .ok ()⟩] <+:
        ((down.pardoned 2).crawl root ⟨fun _ => 0, []⟩).state.calls) ∧
    ((down.pardoned 2).crawl root ⟨fun _ => 0, []⟩).state.calls.length = 4 ∧
    ∃ (earlier : List (Deed Nat)) (callback : Callback) (path : Path Nat),
      (up.observed.crawl root ⟨0, []⟩).state.deeds =
        earlier ++ [.called callback path (.error third)] ∧ earlier.length = 4 ∧
      path.current.component.key = "P" ∧
      earlier ++ [.called callback path (.ok ⟨7, none⟩)] <+:
        ((up.pardoned 4 ⟨7, none⟩).crawl root ⟨0, []⟩).state.deeds := by
  obtain ⟨components, paths⟩ := crawls_end_with_first_fault root
  refine ⟨?_, by decide +kernel, ?_⟩
  · obtain ⟨-, -, -, fails⟩ := components Nat down 0
    obtain ⟨earlier, callback, c, made, -, on⟩ := fails third rfl
    have told : ((down.observed.crawl root ⟨fun _ => 0, []⟩).state.calls.map
        fun call => call.component.key) = ["P", "P", "F"] := by decide +kernel
    rw [made, List.map_append] at told
    obtain ⟨before, here⟩ := List.append_inj' (show _ = ["P", "P"] ++ ["F"] from told) rfl
    have two : earlier.length = 2 := by simpa using congrArg List.length before
    exact ⟨earlier, callback, c, made, two, List.singleton_inj.mp here, two ▸ on⟩
  · obtain ⟨-, -, -, fails⟩ := paths Nat Nat up 0
    obtain ⟨earlier, callback, path, made, -, on⟩ := fails third rfl
    have told : ((up.observed.crawl root ⟨0, []⟩).state.deeds.map
        fun deed => deed.component.key) = ["P", "F", "F", "F", "P"] := by decide +kernel
    rw [made, List.map_append] at told
    obtain ⟨before, here⟩ := List.append_inj' (show _ = ["P", "F", "F", "F"] ++ ["P"] from told) rfl
    have four : earlier.length = 4 := by simpa using congrArg List.length before
    exact ⟨earlier, callback, path, made, four, List.singleton_inj.mp here, four ▸ on ⟨7, none⟩⟩

end InterruptionWitnesses

end Metrology
