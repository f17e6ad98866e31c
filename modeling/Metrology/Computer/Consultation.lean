import Metrology.Interchange.Datum
import Metrology.Measure
import Metrology.Settings

/-! # Consultations

A measure computer works by asking questions about the component it runs on and going on as the
answers direct. A consultation is such a piece of work as a tree of questions and answers: it can
depend on nothing else.
-/

namespace Metrology

/-- What a measure computer can ask, storing a measure included. -/
inductive Question where
  /-- Which measure has the component for the metric? -/
  | measure (metric : String)
  /-- Which measures have its children for the metric? -/
  | children (metric : String)
  /-- May this value be stored for the metric? If so, it is. -/
  | add (metric : String) (value : Value)
  /-- Which settings does the component see? -/
  | settings

/-- The answers a question can get; a refusal is an answer too. -/
abbrev Question.Answer : Question → Type
  | .measure _ => Except Fault (Option Measure)
  | .children _ => Except Fault (List Measure)
  | .add _ _ => Except Fault Unit
  | .settings => Settings

/-- A piece of work that asks questions, may leave remarks, and ends in a value. -/
inductive Consultation (α : Type) where
  | done (value : α)
  | ask (question : Question) (next : question.Answer → Consultation α)
  | remark (body : Datum) (next : Consultation α)

namespace Consultation

variable {α β γ : Type}

/-- Goes on with `f` where the first consultation is done. -/
def bind : Consultation α → (α → Consultation β) → Consultation β
  | .done value, f => f value
  | .ask question next, f => .ask question fun answer => (next answer).bind f
  | .remark body next, f => .remark body (next.bind f)

instance : Monad Consultation where
  pure := .done
  bind := bind

private theorem id_map_consultation (work : Consultation α) : id <$> work = work := by
  induction work with
  | done _ => rfl
  | ask question next ih => exact congrArg (ask question) (funext ih)
  | remark body next ih => exact congrArg (remark body) ih

private theorem bind_assoc_consultation (work : Consultation α) (f : α → Consultation β)
    (g : β → Consultation γ) : work >>= f >>= g = work >>= fun a => f a >>= g := by
  induction work with
  | done _ => rfl
  | ask question next ih => exact congrArg (ask question) (funext ih)
  | remark body next ih => exact congrArg (remark body) ih

instance : LawfulMonad Consultation :=
  LawfulMonad.mk' Consultation id_map_consultation (fun _ _ => rfl) bind_assoc_consultation

end Consultation

/-- A consultation that may fail. -/
abbrev Consult := ExceptT Fault Consultation

namespace Consult

/-- The measure of the component for a metric. -/
def measure (metric : String) : Consult (Option Measure) :=
  ExceptT.mk (.ask (.measure metric) .done)

/-- The measures of the children for a metric. -/
def children (metric : String) : Consult (List Measure) :=
  ExceptT.mk (.ask (.children metric) .done)

/-- Stores a value for a metric. -/
def add (metric : String) (value : Value) : Consult Unit :=
  ExceptT.mk (.ask (.add metric value) .done)

/-- The settings of the component. -/
def settings : Consult Settings :=
  ExceptT.mk (.ask .settings fun answer => .done (.ok answer))

/-- Leaves a remark. -/
def remark (body : Datum) : Consult Unit :=
  ExceptT.mk (.remark body (.done (.ok ())))

end Consult

end Metrology
