import Metrology.Text.Blank

/-! # Comma-separated items

A text is cut at every comma, each piece is trimmed of blanks, and empty pieces are dropped.
-/

namespace Metrology.Text

/-- The pieces between the commas: one more than there are commas. -/
def pieces : List Char → List (List Char)
  | [] => [[]]
  | c :: cs =>
    if c = ',' then [] :: pieces cs
    else
      match pieces cs with
      | [] => [[c]]
      | piece :: rest => (c :: piece) :: rest

/-- The trimmed pieces that are not empty. -/
def itemChars (cs : List Char) : List (List Char) :=
  ((pieces cs).map trimChars).filter (! ·.isEmpty)

/-- The items of a comma-separated text. -/
def items (s : String) : List String :=
  (itemChars s.toList).map String.ofList

end Metrology.Text
