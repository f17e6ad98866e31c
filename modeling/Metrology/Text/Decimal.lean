/-! # Shortest decimals

A double is shown by the decimal that needs the fewest digits of all that are read back as it, and
among those by the nearest. To find it all numbers are counted in a unit so small that the double and
the middles between it and its neighbours are whole.
-/

namespace Metrology.Text

/-! ## The interval of a number -/

/-- A number, with the interval of those that are read back as it. -/
structure Rounded where
  low : Nat
  value : Nat
  high : Nat
  /-- Whether the ends of the interval are read back as the number. -/
  closed : Bool
  low_pos : 0 < low
  low_lt_value : low < value
  value_lt_high : value < high

namespace Rounded

/-- The number `n` is read back as the rounded one. -/
def Admits (r : Rounded) (n : Nat) : Prop :=
  if r.closed then r.low ≤ n ∧ n ≤ r.high else r.low < n ∧ n < r.high

instance (r : Rounded) (n : Nat) : Decidable (r.Admits n) :=
  inferInstanceAs (Decidable (if r.closed then r.low ≤ n ∧ n ≤ r.high else r.low < n ∧ n < r.high))

variable (r : Rounded)

theorem admits_value : r.Admits r.value := by
  have below := r.low_lt_value
  have above := r.value_lt_high
  unfold Admits
  split <;> omega

variable {r}

theorem Admits.of_le_of_le {a b n : Nat} (first : r.Admits a) (last : r.Admits b) (above : a ≤ n)
    (below : n ≤ b) : r.Admits n := by
  unfold Admits at *
  split at first <;> split <;> simp_all <;> omega

theorem Admits.pos {n : Nat} (admits : r.Admits n) : 0 < n := by
  have positive := r.low_pos
  unfold Admits at admits
  split at admits <;> omega

theorem Admits.le_high {n : Nat} (admits : r.Admits n) : n ≤ r.high := by
  unfold Admits at admits
  split at admits <;> omega

/-! ## The search -/

/-- How far two numbers are apart. -/
def gap (a b : Nat) : Nat :=
  (a - b) + (b - a)

/-- The multiple of `step` that is nearest to the value, of those that are read back as it; of two
that are as near it is the greater one. -/
def nearest? (r : Rounded) (step : Nat) : Option Nat :=
  let below := r.value / step
  let above := below + 1
  if r.Admits (above * step) ∧
      (r.Admits (below * step) → gap (above * step) r.value ≤ gap (below * step) r.value) then
    some above
  else if r.Admits (below * step) then some below
  else none

/-- The digits of the shortest decimal and the number of places that it leaves out, searched from a
number of places on downwards. -/
def search (r : Rounded) : Nat → Nat × Nat
  | 0 => (r.value, 0)
  | places + 1 =>
    match r.nearest? (Nat.pow 10 (places + 1)) with
    | some digits => (digits, places + 1)
    | none => r.search places

/-- The digits of the shortest decimal and the number of places that it leaves out. -/
def shortest (r : Rounded) : Nat × Nat :=
  r.search (r.high.log2 / 3 + 1)

/-! ## What is found -/

/-- A multiple of `step` is no greater than the one next below the value, or no less than the one
next above. -/
theorem mul_le_or_le_mul (value step n : Nat) :
    n * step ≤ value / step * step ∨ (value / step + 1) * step ≤ n * step := by
  rcases Nat.lt_or_ge (value / step) n with above | below
  · exact .inr (Nat.mul_le_mul_right step above)
  · exact .inl (Nat.mul_le_mul_right step below)

theorem lt_next_mul (value : Nat) {step : Nat} (pos : 0 < step) :
    value < (value / step + 1) * step :=
  (Nat.div_lt_iff_lt_mul pos).mp (Nat.lt_succ_self _)

theorem of_nearest?_eq_some {step digits : Nat} (pos : 0 < step)
    (found : r.nearest? step = some digits) :
    r.Admits (digits * step) ∧
      ∀ n, r.Admits (n * step) → gap (digits * step) r.value ≤ gap (n * step) r.value := by
  have below := Nat.div_mul_le_self r.value step
  have above := lt_next_mul r.value pos
  simp only [nearest?] at found
  split at found
  · rename_i upward
    obtain rfl := Option.some.inj found
    refine ⟨upward.1, fun n admits => ?_⟩
    rcases mul_le_or_le_mul r.value step n with down | up
    · have nearer := upward.2 (admits.of_le_of_le r.admits_value down below)
      unfold gap at *
      omega
    · unfold gap
      omega
  · rename_i notUpward
    split at found
    · rename_i admitted
      obtain rfl := Option.some.inj found
      refine ⟨admitted, fun n admits => ?_⟩
      rcases mul_le_or_le_mul r.value step n with down | up
      · unfold gap
        omega
      · have next := r.admits_value.of_le_of_le admits (Nat.le_of_lt above) up
        have farther : ¬ gap ((r.value / step + 1) * step) r.value ≤
            gap (r.value / step * step) r.value :=
          fun nearer => notUpward ⟨next, fun _ => nearer⟩
        unfold gap at *
        omega
    · contradiction

theorem not_admits_of_nearest?_eq_none {step : Nat} (pos : 0 < step)
    (missing : r.nearest? step = none) (n : Nat) : ¬ r.Admits (n * step) := by
  intro admits
  have below := Nat.div_mul_le_self r.value step
  have above := lt_next_mul r.value pos
  simp only [nearest?] at missing
  split at missing
  · contradiction
  · rename_i notUpward
    split at missing
    · contradiction
    · rename_i denied
      rcases mul_le_or_le_mul r.value step n with down | up
      · exact denied (admits.of_le_of_le r.admits_value down below)
      · have next := r.admits_value.of_le_of_le admits (Nat.le_of_lt above) up
        exact notUpward ⟨next, fun admitted => absurd admitted denied⟩

/-- What a search finds is read back as the number. No decimal is that leaves out more places, as
far as the search has looked, and none that leaves out as many is nearer. -/
theorem search_spec (r : Rounded) (top : Nat) :
    let (digits, places) := r.search top
    r.Admits (digits * Nat.pow 10 places) ∧
      (∀ more, places < more → more ≤ top → ∀ n, ¬ r.Admits (n * Nat.pow 10 more)) ∧
      ∀ n, r.Admits (n * Nat.pow 10 places) →
        gap (digits * Nat.pow 10 places) r.value ≤ gap (n * Nat.pow 10 places) r.value := by
  induction top with
  | zero =>
    refine ⟨by simpa [search] using r.admits_value, by omega, fun n _ => ?_⟩
    simp [gap]
  | succ top ih =>
    have pos : 0 < Nat.pow 10 (top + 1) := Nat.pow_pos (by decide)
    simp only [search]
    split
    · rename_i digits found
      obtain ⟨admits, nearest⟩ := of_nearest?_eq_some pos found
      exact ⟨admits, by omega, nearest⟩
    · rename_i missing
      obtain ⟨admits, coarser, nearest⟩ := ih
      refine ⟨admits, fun more isMore inReach n => ?_, nearest⟩
      rcases Nat.lt_or_eq_of_le inReach with below | rfl
      · exact coarser more isMore (by omega) n
      · exact not_admits_of_nearest?_eq_none pos missing n

/-- No decimal that leaves out so many places but zero is small enough. -/
theorem high_lt_pow (r : Rounded) : r.high < Nat.pow 10 (r.high.log2 / 3 + 1) :=
  calc r.high < Nat.pow 2 (r.high.log2 + 1) := Nat.lt_log2_self
    _ ≤ Nat.pow 2 (3 * (r.high.log2 / 3 + 1)) := Nat.pow_le_pow_right (by decide) (by omega)
    _ = Nat.pow 8 (r.high.log2 / 3 + 1) := Nat.pow_mul 2 3 _
    _ ≤ Nat.pow 10 (r.high.log2 / 3 + 1) := Nat.pow_le_pow_left (by decide) _

/-- The shortest decimal is read back as the number. None that leaves out more places is, and none
that leaves out as many is nearer. -/
theorem shortest_spec (r : Rounded) :
    let (digits, places) := r.shortest
    r.Admits (digits * Nat.pow 10 places) ∧
      (∀ more, places < more → ∀ n, ¬ r.Admits (n * Nat.pow 10 more)) ∧
      ∀ n, r.Admits (n * Nat.pow 10 places) →
        gap (digits * Nat.pow 10 places) r.value ≤ gap (n * Nat.pow 10 places) r.value := by
  obtain ⟨admits, coarser, nearest⟩ := r.search_spec (r.high.log2 / 3 + 1)
  refine ⟨admits, fun more isMore n admitted => ?_, nearest⟩
  rcases Nat.lt_or_ge (r.high.log2 / 3 + 1) more with outOfReach | inReach
  · -- So coarse a decimal is zero or beyond the interval.
    have tooLarge : r.high < Nat.pow 10 more :=
      Nat.lt_of_lt_of_le r.high_lt_pow (Nat.pow_le_pow_right (by decide) (Nat.le_of_lt outOfReach))
    have factor : 0 < n := Nat.pos_of_mul_pos_right admitted.pos
    have product := Nat.le_mul_of_pos_left (Nat.pow 10 more) factor
    have small := admitted.le_high
    omega
  · exact coarser more isMore inReach n admitted

/-- The last digit of the decimal is needed. -/
theorem shortest_mod_ten (r : Rounded) : r.shortest.1 % 10 ≠ 0 := by
  obtain ⟨admits, coarser, -⟩ := r.shortest_spec
  intro zero
  refine coarser (r.shortest.2 + 1) (Nat.lt_succ_self _) (r.shortest.1 / 10) ?_
  have next : Nat.pow 10 (r.shortest.2 + 1) = 10 * Nat.pow 10 r.shortest.2 := Nat.pow_succ'
  rwa [next, ← Nat.mul_assoc, Nat.div_mul_cancel (Nat.dvd_of_mod_eq_zero zero)]

end Rounded

/-! ## Written decimals -/

/-- The number `digits * 10 ^ exponent`. -/
structure Decimal where
  digits : Nat
  exponent : Int

/-- The decimal as it is written: with a point and a digit on both sides of it, or scaled by a power
of ten where it is less than `0.0001` or has more than sixteen digits before the point. -/
def Decimal.written (decimal : Decimal) : String :=
  let shown := Nat.toDigits 10 decimal.digits
  let point : Int := shown.length + decimal.exponent
  if point < -3 ∨ 16 < point then
    let fraction := if shown.tail.isEmpty then [] else '.' :: shown.tail
    String.ofList (shown.take 1 ++ fraction ++ ['e']) ++ toString (point - 1)
  else if point ≤ 0 then
    String.ofList ('0' :: '.' :: List.replicate (-point).toNat '0' ++ shown)
  else if shown.length ≤ point then
    String.ofList (shown ++ List.replicate (point - shown.length).toNat '0' ++ ['.', '0'])
  else
    String.ofList (shown.take point.toNat ++ '.' :: shown.drop point.toNat)

example : (Decimal.mk 25 (-1)).written = "2.5" := by decide
example : (Decimal.mk 25 (-6)).written = "2.5e-5" := by decide

/-! ## Doubles -/

/-- The positive double `significand * 2 ^ exponent`. -/
structure Binary where
  significand : Nat
  exponent : Int
  /-- Whether the double next below is only half as far away as the one next above. -/
  narrow : Bool
  pos : 0 < significand

namespace Binary

variable (b : Binary)

/-- The number of decimal places after the point that a quarter of `2 ^ exponent` needs. -/
def places : Nat :=
  (2 - b.exponent).toNat

/-- A quarter of `2 ^ exponent`, counted in the last of these places. -/
def quarter : Nat :=
  Nat.pow 5 b.places * Nat.pow 2 (b.exponent - 2).toNat

theorem quarter_eq :
    b.quarter * Nat.pow 2 b.places = Nat.pow 10 b.places * Nat.pow 2 (b.exponent - 2).toNat := by
  have ten : Nat.pow 10 b.places = Nat.pow 5 b.places * Nat.pow 2 b.places := Nat.mul_pow 5 2 _
  rw [quarter, ten, Nat.mul_right_comm]

theorem quarter_pos : 0 < b.quarter :=
  Nat.mul_pos (Nat.pow_pos (by decide)) (Nat.pow_pos (by decide))

/-- What is read back as the double ends halfway to its neighbours, and the ends are part of it if
the significand is even. -/
def rounded : Rounded where
  low := (4 * b.significand - if b.narrow then 1 else 2) * b.quarter
  value := 4 * b.significand * b.quarter
  high := (4 * b.significand + 2) * b.quarter
  closed := b.significand % 2 = 0
  low_pos := Nat.mul_pos (by have := b.pos; split <;> omega) b.quarter_pos
  low_lt_value :=
    Nat.mul_lt_mul_of_pos_right (by have := b.pos; split <;> omega) b.quarter_pos
  value_lt_high := Nat.mul_lt_mul_of_pos_right (by omega) b.quarter_pos

/-- The shortest decimal of the double. -/
def decimal : Decimal :=
  let (digits, dropped) := b.rounded.shortest
  ⟨digits, dropped - b.places⟩

end Binary

/-- The double of the given bits as it is written. -/
def doubleOfBits (bits : UInt64) : String :=
  let fraction := (bits &&& 0x000fffffffffffff).toNat
  let exponent := (bits >>> 52 &&& 0x7ff).toNat
  let sign := if bits >>> 63 = 0 then "" else "-"
  if exponent = 0x7ff then
    if fraction = 0 then sign ++ "inf" else "NaN"
  else if 0 < exponent then
    let b : Binary :=
      ⟨0x0010000000000000 + fraction, (exponent : Int) - 1075, fraction = 0, by omega⟩
    sign ++ b.decimal.written
  else if pos : 0 < fraction then
    let b : Binary := ⟨fraction, -1074, false, pos⟩
    sign ++ b.decimal.written
  else sign ++ "0.0"

/-- The double as it is written. -/
def double (x : Float) : String :=
  doubleOfBits x.toBits

example : doubleOfBits 0x3fb999999999999a = "0.1" := by decide +kernel

end Metrology.Text
