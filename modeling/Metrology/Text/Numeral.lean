/-! # Decimal numerals

Whole numbers in ASCII digits, with at most one sign in front.
-/

namespace Metrology.Text

/-- The number a non-empty run of ASCII digits stands for. -/
def natOfDigits? (cs : List Char) : Option Nat :=
  if cs.isEmpty || cs.any (! ·.isDigit) then none
  else some (cs.foldl (fun n c => 10 * n + (c.toNat - '0'.toNat)) 0)

/-- Reads ASCII digits after an optional single `+` or `-`. -/
def intOfChars? : List Char → Option Int
  | '-' :: digits => (natOfDigits? digits).map fun n => -(n : Int)
  | '+' :: digits => (natOfDigits? digits).map fun n => (n : Int)
  | digits => (natOfDigits? digits).map fun n => (n : Int)

/-- Reads a whole number of 64 bits; one that does not fit is refused. -/
def int64OfString? (s : String) : Option Int64 :=
  match intOfChars? s.toList with
  | none => none
  | some n =>
    if Int64.minValue.toInt ≤ n ∧ n ≤ Int64.maxValue.toInt then some (Int64.ofInt n) else none

end Metrology.Text
