import Metrology.Interchange.Datum

/-! # Written numbers

How a number in decimal notation becomes a datum. One without fraction and exponent is a whole
number if it fits 64 bits. Any other is read from its leading digits, as many as fit 64 bits, and
scaled by a power of ten in double arithmetic; minus zero is such a number too.
-/

namespace Metrology

/-- A number as it is written. -/
structure WrittenNumber where
  negative : Bool
  /-- The digits before the point. -/
  whole : List Nat
  /-- The digits after the point, if there is one. -/
  fraction : Option (List Nat) := none
  /-- The power of ten it is scaled by, if one is written. -/
  exponent : Option Int := none

namespace WrittenNumber

/-- The digits read so far and the power of ten that the last of them stands for. -/
structure Leading where
  significand : Nat := 0
  scale : Int := 0

/-- Whether another digit still fits 64 bits. -/
def Leading.takes (leading : Leading) (digit : Nat) : Bool :=
  leading.significand * 10 + digit < UInt64.size

/-- Reads digits before the point: those after the first that does not fit only shift the scale. -/
def Leading.readWhole (leading : Leading) : List Nat → Leading
  | [] => leading
  | digit :: digits =>
    if leading.takes digit then
      Leading.readWhole ⟨leading.significand * 10 + digit, leading.scale⟩ digits
    else ⟨leading.significand, leading.scale + digits.length + 1⟩

/-- Reads digits after the point: those after the first that does not fit are dropped. -/
def Leading.readFraction (leading : Leading) : List Nat → Leading
  | [] => leading
  | digit :: digits =>
    if leading.takes digit then
      Leading.readFraction ⟨leading.significand * 10 + digit, leading.scale - 1⟩ digits
    else leading

/-- A power of ten as a double. -/
def powerOfTen (n : Nat) : Float :=
  Float.ofScientific 1 false n

/-- The double `x` scaled by a power of ten, in steps that doubles can hold; none if it overflows.
-/
def scaled (x : Float) (scale : Int) : Option Float :=
  if 308 < scale then
    if x == 0.0 then some x else none
  else if 0 ≤ scale then
    let y := x * powerOfTen scale.toNat
    if y.isInf then none else some y
  else if -308 ≤ scale then some (x / powerOfTen (-scale).toNat)
  else if x == 0.0 then some x
  else scaled (x / powerOfTen 308) (scale + 308)
termination_by (-scale).toNat

/-- The double of the given sign. -/
def signed (negative : Bool) (x : Float) : Float :=
  if negative then -x else x

/-- The number as a double, if it does not overflow. -/
def toReal? (number : WrittenNumber) : Option Float :=
  let leading := (({} : Leading).readWhole number.whole).readFraction (number.fraction.getD [])
  (scaled (Float.ofNat leading.significand) (leading.scale + number.exponent.getD 0)).map
    (signed number.negative)

/-- The number as a datum, if it does not overflow. -/
def toDatum? (number : WrittenNumber) : Option Datum :=
  let magnitude : Nat := number.whole.foldl (fun n digit => 10 * n + digit) 0
  match number.fraction, number.exponent with
  | none, none =>
    if number.negative then
      if 0 < magnitude ∧ Int64.minValue.toInt ≤ -(magnitude : Int) then
        some (.int (-(magnitude : Int)))
      else number.toReal?.map .real
    else if magnitude < UInt64.size then some (.int magnitude)
    else number.toReal?.map .real
  | _, _ => number.toReal?.map .real

end WrittenNumber

end Metrology
