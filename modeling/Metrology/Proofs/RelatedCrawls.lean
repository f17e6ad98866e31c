import Metrology.Crawl.PathVisitor
import Metrology.Proofs.CrawlOrder
import Metrology.Proofs.Runs

/-! # Related crawls

A crawl does nothing but put together what its visitor does. A relation between actions that
survives putting them together therefore holds between the crawls of two visitors as soon as it
holds between what the visitors do.
-/

namespace Metrology

open Metrology.Action

variable {σ τ ε : Type}

/-- The relation holds between actions that are put together from related ones. -/
structure Compatible (R : ∀ {α : Type}, Action σ α → Action τ α → Prop) : Prop where
  pure : ∀ {α : Type} (a : α), R (Pure.pure a) (Pure.pure a)
  emit : ∀ event : Event, R (Action.emit event) (Action.emit event)
  bind : ∀ {α β : Type} {x : Action σ α} {y : Action τ α} {f : α → Action σ β} {g : α → Action τ β},
    R x y → (∀ a, R (f a) (g a)) → R (x >>= f) (y >>= g)

/-- On the part of the state that `view` shows, the first action does what the second one does. -/
def Mirrors {α : Type} (view : σ → τ) (x : Action σ α) (y : Action τ α) : Prop :=
  ∀ s, (x s).result = (y (view s)).result ∧ view (x s).state = (y (view s)).state ∧
    (x s).journal = (y (view s)).journal

theorem compatible_mirrors (view : σ → τ) :
    Compatible fun (x : Action σ _) (y : Action τ _) => Mirrors view x y where
  pure _ _ := ⟨rfl, rfl, rfl⟩
  emit _ _ := ⟨rfl, rfl, rfl⟩
  bind {α β x y f g} first next s := by
    obtain ⟨same, state, written⟩ := first s
    cases result : (x s).result with
    | ok a =>
      rw [bind_apply_ok f result, bind_apply_ok g (same.symm.trans result), written, ← state]
      obtain ⟨same', state', written'⟩ := next a (x s).state
      exact ⟨same', state', by rw [written']⟩
    | error fault =>
      rw [bind_apply_error f result, bind_apply_error g (same.symm.trans result)]
      exact ⟨rfl, state, written⟩

variable {R : ∀ {α : Type}, Action σ α → Action τ α → Prop}

namespace Visitor

variable {v : Visitor σ} {w : Visitor τ}

theorem related_dispatchAt (compatible : Compatible R) (order : v.order = w.order)
    (calls : ∀ callback c, R (v.call callback c) (w.call callback c)) (time : CrawlOrder)
    (c : Component) : R (v.dispatchAt time c) (w.dispatchAt time c) := by
  rw [dispatchAt, dispatchAt, order]
  by_cases now : w.order = time
  · rw [if_pos now, if_pos now]
    exact compatible.bind (calls .any c) fun _ => calls _ c
  · rw [if_neg now, if_neg now]
    exact compatible.pure ()

theorem related_visitAll (compatible : Compatible R) (limit : v.limit = w.limit)
    {cs : List Component} (each : ∀ c ∈ cs, R (v.visit c) (w.visit c)) :
    R (v.visitAll cs) (w.visitAll cs) := by
  induction cs with
  | nil => exact compatible.pure ()
  | cons c cs ih =>
    have rest := ih fun d mem => each d (List.mem_cons_of_mem _ mem)
    rw [visitAll, visitAll, limit]
    by_cases allowed : w.limit.Allows c.kind
    · rw [if_pos allowed, if_pos allowed]
      exact compatible.bind (each c List.mem_cons_self) fun _ => rest
    · rw [if_neg allowed, if_neg allowed]
      exact rest

/-- Visitors of one order and one limit whose calls are related have related crawls. -/
theorem related_crawl (compatible : Compatible R) (order : v.order = w.order)
    (limit : v.limit = w.limit) (calls : ∀ callback c, R (v.call callback c) (w.call callback c))
    (root : Component) : R (v.crawl root) (w.crawl root) := by
  have visits : ∀ c, R (v.visit c) (w.visit c) := by
    intro c
    induction c with
    | node profile children ih =>
      rw [visit, visit]
      refine compatible.bind (compatible.emit _) fun _ => ?_
      refine compatible.bind (related_dispatchAt compatible order calls _ _) fun _ => ?_
      refine compatible.bind (related_visitAll compatible limit ih) fun _ => ?_
      exact related_dispatchAt compatible order calls _ _
  rw [crawl, crawl, limit]
  by_cases allowed : w.limit.Allows root.kind
  · rw [if_pos allowed, if_pos allowed]
    exact visits root
  · rw [if_neg allowed, if_neg allowed]
    exact compatible.pure ()

end Visitor

namespace PathVisitor

variable {v : PathVisitor σ ε} {w : PathVisitor τ ε}

theorem related_step (compatible : Compatible R)
    (calls : ∀ callback path, R (v.call callback path) (w.call callback path))
    (callback : Callback) (path : Path ε) : R (v.step callback path) (w.step callback path) :=
  compatible.bind (calls callback path) fun ends => compatible.pure (path.withEnds ends)

theorem related_dispatch (compatible : Compatible R)
    (calls : ∀ callback path, R (v.call callback path) (w.call callback path)) (path : Path ε) :
    R (v.dispatch path) (w.dispatch path) :=
  compatible.bind (related_step compatible calls .any path)
    fun path => related_step compatible calls _ path

theorem related_dispatchAt (compatible : Compatible R) (order : v.order = w.order)
    (calls : ∀ callback path, R (v.call callback path) (w.call callback path)) (time : CrawlOrder)
    (path : Path ε) : R (v.dispatchAt time path) (w.dispatchAt time path) := by
  rw [dispatchAt, dispatchAt, order]
  by_cases now : w.order = time
  · rw [if_pos now, if_pos now]
    exact related_dispatch compatible calls path
  · rw [if_neg now, if_neg now]
    exact compatible.pure path

theorem related_visitAll (compatible : Compatible R) (limit : v.limit = w.limit)
    (enters : ∀ c, R (v.enter c) (w.enter c)) {cs : List Component}
    (each : ∀ c ∈ cs, ∀ path, R (v.visit c path) (w.visit c path)) (path : Path ε) :
    R (v.visitAll cs path) (w.visitAll cs path) := by
  induction cs generalizing path with
  | nil => exact compatible.pure path
  | cons c cs ih =>
    have rest := ih fun d mem => each d (List.mem_cons_of_mem _ mem)
    rw [visitAll, visitAll, limit]
    by_cases allowed : w.limit.Allows c.kind
    · rw [if_pos allowed, if_pos allowed]
      refine compatible.bind (enters c) fun element => ?_
      exact compatible.bind (each c List.mem_cons_self _) fun below => rest below.pop
    · rw [if_neg allowed, if_neg allowed]
      exact rest path

/-- Path visitors of one order and one limit that do related things have related crawls. -/
theorem related_crawl (compatible : Compatible R) (order : v.order = w.order)
    (limit : v.limit = w.limit) (enters : ∀ c, R (v.enter c) (w.enter c))
    (calls : ∀ callback path, R (v.call callback path) (w.call callback path))
    (root : Component) : R (v.crawl root) (w.crawl root) := by
  have visits : ∀ c path, R (v.visit c path) (w.visit c path) := by
    intro c
    induction c with
    | node profile children ih =>
      intro path
      rw [visit, visit]
      refine compatible.bind (compatible.emit _) fun _ => ?_
      refine compatible.bind (related_dispatchAt compatible order calls _ path) fun path => ?_
      refine compatible.bind (related_visitAll compatible limit enters ih path) fun path => ?_
      exact related_dispatchAt compatible order calls _ path
  rw [crawl, crawl, limit]
  by_cases allowed : w.limit.Allows root.kind
  · rw [if_pos allowed, if_pos allowed]
    refine compatible.bind (enters root) fun element => ?_
    exact compatible.bind (visits root _) fun _ => compatible.pure ()
  · rw [if_neg allowed, if_neg allowed]
    exact compatible.pure ()

end PathVisitor

end Metrology
