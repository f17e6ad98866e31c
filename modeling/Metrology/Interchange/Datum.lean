/-! # Data

Structured data as it is exchanged with other programs: nested lists and named members over numbers,
texts, truth values and nothing. Whole numbers and fractions are kept apart.
-/

namespace Metrology

/-- A piece of structured data. -/
inductive Datum where
  | null
  | bool (value : Bool)
  | int (value : Int)
  | real (value : Float)
  | text (value : String)
  | list (items : List Datum)
  | object (members : List (String × Datum))

namespace Datum

/-- The member of an object under a name. -/
def member? (datum : Datum) (name : String) : Option Datum :=
  match datum with
  | .object members => members.lookup name
  | _ => none

end Datum

end Metrology
