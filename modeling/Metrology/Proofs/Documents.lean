import Metrology.Interchange.Document

/-! # Documents that are read back

What is written is read as what it was, as far as data can be written exactly: numbers are whole and
fit 64 bits, with a sign or without, and no object has two members of one name.
-/

namespace Metrology

/-- Data that a document keeps exactly. -/
inductive Datum.Exact : Datum → Prop
  | null : Exact .null
  | bool (value : Bool) : Exact (.bool value)
  | int {value : Int} (low : Int64.minValue.toInt ≤ value) (high : value < UInt64.size) :
      Exact (.int value)
  | text (value : String) : Exact (.text value)
  | list {items : List Datum} (each : ∀ item ∈ items, Exact item) : Exact (.list items)
  | object {members : List (String × Datum)} (nodup : (members.map Prod.fst).Nodup)
      (each : ∀ member ∈ members, Exact member.2) : Exact (.object members)

namespace Document

/-! ## Texts -/

theorem textBody_quote (done cs : List Char) :
    textBody done ('"' :: cs) = some (String.ofList done.reverse, cs) := by
  rw [textBody]

theorem textBody_letter {letter c : Char} (isOther : letter ≠ 'u')
    (stands : escaped? letter = some c) (done cs : List Char) :
    textBody done ('\\' :: letter :: cs) = textBody (c :: done) cs := by
  rw [textBody]
  · rw [stands]
    rfl
  · exact fun _ _ _ _ _ _ _ _ _ isU => absurd isU isOther
  · exact fun _ _ _ _ _ isU => absurd isU isOther

theorem textBody_unit {a b c d : Char} {unit : Nat} (stands : ofHex? [a, b, c, d] = some unit)
    (small : unit < 0xD800) (done cs : List Char) :
    textBody done ('\\' :: 'u' :: a :: b :: c :: d :: cs) =
      textBody (Char.ofNat unit :: done) cs := by
  have notHigh : isHighHalf unit = false := by
    simp only [isHighHalf, Bool.and_eq_false_iff, decide_eq_false_iff_not]
    omega
  have notLow : isLowHalf unit = false := by
    simp only [isLowHalf, Bool.and_eq_false_iff, decide_eq_false_iff_not]
    omega
  by_cases pair : ∃ e f g h more, cs = '\\' :: 'u' :: e :: f :: g :: h :: more
  · obtain ⟨e, f, g, h, more, rfl⟩ := pair
    rw [textBody, stands]
    simp [notHigh, notLow]
  · rw [textBody, stands]
    · simp [notHigh, notLow]
    · exact fun e f g h more isPair => pair ⟨e, f, g, h, more, isPair⟩

theorem textBody_plain {c : Char} (notQuote : c ≠ '"') (notEscape : c ≠ '\\')
    (printed : ¬ c.toNat < 0x20) (done cs : List Char) :
    textBody done (c :: cs) = textBody (c :: done) cs := by
  rw [textBody]
  · rw [if_neg printed]
  all_goals grind

theorem ofHex?_digitChar {high low : Nat} (isHigh : high < 2) (isLow : low < 16) :
    ofHex? ['0', '0', Nat.digitChar high, Nat.digitChar low] = some (16 * high + low) := by
  have each : ∀ high : Fin 2, ∀ low : Fin 16,
      ofHex? ['0', '0', Nat.digitChar high, Nat.digitChar low] =
        some (16 * high.val + low.val) := by
    decide
  exact each ⟨high, isHigh⟩ ⟨low, isLow⟩

/-- Each character is read as what it was. -/
theorem textBody_escape (c : Char) (done cs : List Char) :
    textBody done (escape c ++ cs) = textBody (c :: done) cs := by
  unfold escape
  split
  · exact textBody_letter (by decide) rfl done cs
  · exact textBody_letter (by decide) rfl done cs
  · exact textBody_letter (by decide) rfl done cs
  · exact textBody_letter (by decide) rfl done cs
  · exact textBody_letter (by decide) rfl done cs
  · exact textBody_letter (by decide) rfl done cs
  · exact textBody_letter (by decide) rfl done cs
  · rename_i notQuote notEscape _ _ _ _ _
    by_cases control : c.toNat < 0x20
    · have stands := ofHex?_digitChar (show c.toNat / 16 < 2 by omega)
        (show c.toNat % 16 < 16 by omega)
      rw [if_pos control]
      refine (textBody_unit stands (by omega) done cs).trans ?_
      rw [Nat.div_add_mod, Char.ofNat_toNat]
    · rw [if_neg control]
      exact textBody_plain notQuote notEscape control done cs

theorem textBody_written (text done rest : List Char) :
    textBody done (text.flatMap escape ++ '"' :: rest) =
      some (String.ofList (done.reverse ++ text), rest) := by
  induction text generalizing done with
  | nil => rw [List.flatMap_nil, List.nil_append, textBody_quote, List.append_nil]
  | cons c text ih =>
    rw [List.flatMap_cons, List.append_assoc, textBody_escape, ih, List.reverse_cons,
      List.append_assoc]
    rfl

/-! ## Numbers -/

/-- What comes after a number does not go on with it. -/
def Ends (rest : List Char) : Prop :=
  ∀ c ∈ rest.head?, c.isDigit = false ∧ c ≠ '.' ∧ c ≠ 'e' ∧ c ≠ 'E'

theorem ends_nil : Ends [] := by
  simp [Ends]

theorem ends_cons {c : Char} {rest : List Char} (isOther : c.isDigit = false)
    (others : c ≠ '.' ∧ c ≠ 'e' ∧ c ≠ 'E') : Ends (c :: rest) := by
  rintro d isHead
  obtain rfl := Option.some.inj isHead
  exact ⟨isOther, others⟩

/-- The digits of a numeral, as numbers. -/
def numeral (n : Nat) : List Nat :=
  (Nat.toDigits 10 n).map fun c => c.toNat - '0'.toNat

theorem isDigit_of_mem_toDigits {n : Nat} {c : Char} (mem : c ∈ Nat.toDigits 10 n) :
    c.isDigit = true :=
  Nat.isDigit_of_mem_toDigits (by decide) (by decide) mem

theorem foldl_numeral (n : Nat) : (numeral n).foldl (fun n digit => 10 * n + digit) 0 = n := by
  rw [numeral, List.foldl_map]
  exact Nat.ofDigitChars_toDigits (by decide) (by decide)

theorem numeral_ne_nil (n : Nat) : numeral n ≠ [] := by
  simp [numeral]

theorem head?_numeral {n : Nat} (pos : 0 < n) : (numeral n).head? ≠ some 0 := by
  induction n using Nat.strongRecOn with
  | ind n ih =>
    rcases Nat.lt_or_ge n 10 with short | long
    · have each : ∀ n : Fin 10, 0 < n.val → (numeral n).head? ≠ some 0 := by decide
      exact each ⟨n, short⟩ pos
    · have split : numeral n = numeral (n / 10) ++ [(n % 10).digitChar.toNat - '0'.toNat] := by
        rw [numeral, Nat.toDigits_of_base_le (by decide) long, List.map_append]
        rfl
      have shorter := ih (n / 10) (by omega) (by omega)
      obtain ⟨digit, more, shown⟩ := List.exists_cons_of_ne_nil (numeral_ne_nil (n / 10))
      rw [shown] at shorter
      rw [split, shown]
      exact shorter

/-- A numeral does not begin with a zero that it could do without. -/
theorem numeral_plain (n : Nat) :
    ¬ (decide ((numeral n).length > 1) && (numeral n).head? == some 0) = true := by
  rcases Nat.eq_zero_or_pos n with rfl | pos
  · decide
  · simp [head?_numeral pos]

theorem digits_toDigits (n : Nat) {rest : List Char} (ends : Ends rest) :
    digits (Nat.toDigits 10 n ++ rest) = (numeral n, rest) := by
  have all : ∀ c ∈ Nat.toDigits 10 n, c.isDigit = true := fun _ => isDigit_of_mem_toDigits
  have none : rest.takeWhile Char.isDigit = [] ∧ rest.dropWhile Char.isDigit = rest := by
    cases rest with
    | nil => exact ⟨rfl, rfl⟩
    | cons c rest => simp [(ends c rfl).1]
  rw [digits, List.takeWhile_append_of_pos all, List.dropWhile_append_of_pos all, none.1, none.2,
    List.append_nil]
  rfl

theorem fraction?_of_ends {rest : List Char} (ends : Ends rest) :
    fraction? rest = some (none, rest) := by
  unfold fraction?
  split
  · exact absurd rfl (ends _ rfl).2.1
  · rfl

theorem exponent?_of_ends {rest : List Char} (ends : Ends rest) :
    exponent? rest = some (none, rest) := by
  cases rest with
  | nil => rfl
  | cons c rest =>
    obtain ⟨-, -, lower, upper⟩ := ends c rfl
    simp [exponent?, lower, upper]

theorem minus_toDigits (n : Nat) (rest : List Char) :
    minus (Nat.toDigits 10 n ++ rest) = (false, Nat.toDigits 10 n ++ rest) := by
  cases shown : Nat.toDigits 10 n with
  | nil => exact absurd shown Nat.toDigits_ne_nil
  | cons c cs =>
    have isDigit : c.isDigit = true := isDigit_of_mem_toDigits (shown ▸ List.mem_cons_self)
    rw [List.cons_append, minus]
    intro cs' isMinus
    obtain ⟨rfl, -⟩ := List.cons.inj isMinus
    contradiction

theorem toDatum?_numeral {n : Int} (low : Int64.minValue.toInt ≤ n) (high : n < UInt64.size) :
    WrittenNumber.toDatum? ⟨decide (n < 0), numeral n.natAbs, none, none⟩ = some (.int n) := by
  simp only [WrittenNumber.toDatum?, foldl_numeral]
  by_cases negative : n < 0
  · have magnitude : -(n.natAbs : Int) = n := by omega
    rw [if_pos (by simpa using negative), magnitude, if_pos ⟨by omega, low⟩]
  · have magnitude : (n.natAbs : Int) = n := by omega
    rw [if_neg (by simpa using negative), if_pos (by omega), magnitude]

theorem number?_writtenInt {n : Int} (low : Int64.minValue.toInt ≤ n) (high : n < UInt64.size)
    {rest : List Char} (ends : Ends rest) :
    number? (writtenInt n ++ rest) = some (.int n, rest) := by
  have sign : minus (writtenInt n ++ rest) =
      (decide (n < 0), Nat.toDigits 10 n.natAbs ++ rest) := by
    unfold writtenInt
    by_cases negative : n < 0
    · rw [if_pos negative, decide_eq_true negative]
      rfl
    · rw [if_neg negative, decide_eq_false negative, minus_toDigits]
  have whole : someDigits? (Nat.toDigits 10 n.natAbs ++ rest) = some (numeral n.natAbs, rest) := by
    simp [someDigits?, digits_toDigits _ ends, numeral_ne_nil]
  simp only [number?, sign, whole, fraction?_of_ends ends, exponent?_of_ends ends,
    toDatum?_numeral low high, Option.bind_eq_bind, Option.bind_some, if_neg (numeral_plain _)]
  rfl

/-! ## Data -/

/-- A datum stands at the front of a text, and reading gives it and leaves the rest. -/
def ReadBack (datum : Datum) : Prop :=
  ∀ {depth : Nat} {rest : List Char}, (written datum).length ≤ depth → Ends rest →
    datum? depth (written datum ++ rest) = some (datum, rest)

theorem dropGaps_cons {c : Char} (isPart : isGap c = false) (cs : List Char) :
    dropGaps (c :: cs) = c :: cs := by
  simp [dropGaps, isPart]

theorem isGap_of_numeral {c : Char} (begins : c = '-' ∨ c.isDigit = true) : isGap c = false := by
  rcases begins with rfl | isDigit
  · decide
  · simp only [isGap, Bool.or_eq_false_iff, beq_eq_false_iff_ne]
    refine ⟨⟨⟨?_, ?_⟩, ?_⟩, ?_⟩ <;> rintro rfl <;> contradiction

theorem writtenInt_begins (n : Int) :
    ∃ c cs, writtenInt n = c :: cs ∧ (c = '-' ∨ c.isDigit = true) := by
  unfold writtenInt
  split
  · exact ⟨_, _, rfl, .inl rfl⟩
  · obtain ⟨c, cs, shown⟩ := List.exists_cons_of_ne_nil (@Nat.toDigits_ne_nil n.natAbs 10)
    exact ⟨c, cs, shown, .inr (isDigit_of_mem_toDigits (shown ▸ List.mem_cons_self))⟩

/-- A numeral is told from all other data by its front. -/
theorem datum?_of_numeral {c : Char} (begins : c = '-' ∨ c.isDigit = true) (depth : Nat)
    (cs : List Char) : datum? (depth + 1) (c :: cs) = number? (c :: cs) := by
  rw [datum?, dropGaps_cons (isGap_of_numeral begins)]
  split <;> rename_i here <;>
    first
    | rfl
    | (obtain ⟨rfl, -⟩ := List.cons.inj here
       rcases begins with other | other <;> contradiction)

theorem readBack_int {n : Int} (low : Int64.minValue.toInt ≤ n) (high : n < UInt64.size) :
    ReadBack (.int n) := by
  intro depth rest enough ends
  have number := number?_writtenInt low high ends
  obtain ⟨c, cs, shown, begins⟩ := writtenInt_begins n
  rw [written, shown] at enough ⊢
  rw [shown] at number
  cases depth with
  | zero => contradiction
  | succ depth =>
    rw [List.cons_append] at number ⊢
    rw [datum?_of_numeral begins, number]

theorem readBack_text (s : String) : ReadBack (.text s) := by
  intro depth rest enough _
  cases depth with
  | zero => simp [written, writtenText] at enough
  | succ depth =>
    have body := textBody_written s.toList [] rest
    rw [List.reverse_nil, List.nil_append, String.ofList_toList] at body
    rw [written, writtenText, List.cons_append, List.append_assoc, datum?,
      dropGaps_cons (by decide)]
    simp only [List.singleton_append, body, Option.map_some]

/-- What is written begins neither with a gap nor with the end of a list. -/
theorem written_begins {datum : Datum} (exact : datum.Exact) :
    ∃ c cs, written datum = c :: cs ∧ isGap c = false ∧ c ≠ ']' := by
  cases exact with
  | null => exact ⟨_, _, rfl, by decide, by decide⟩
  | bool value => cases value <;> exact ⟨_, _, rfl, by decide, by decide⟩
  | @int value low high =>
    obtain ⟨c, cs, shown, begins⟩ := writtenInt_begins value
    refine ⟨c, cs, shown, isGap_of_numeral begins, ?_⟩
    rintro rfl
    rcases begins with other | other <;> contradiction
  | text value => exact ⟨_, _, rfl, by decide, by decide⟩
  | list each => exact ⟨_, _, rfl, by decide, by decide⟩
  | object nodup each => exact ⟨_, _, rfl, by decide, by decide⟩

theorem writtenItems_cons_cons (item next : Datum) (items : List Datum) :
    writtenItems (item :: next :: items) = written item ++ ',' :: writtenItems (next :: items) := by
  rw [writtenItems]
  simp

/-- One item is read back, and what comes after it decides how it goes on. -/
theorem items?_item {item : Datum} (readBack : ReadBack item) {depth : Nat} {done : List Datum}
    {tail : List Char} (enough : (written item).length ≤ depth) (ends : Ends tail) :
    items? (depth + 1) done (written item ++ tail) =
      match dropGaps tail with
      | ',' :: cs => items? depth (item :: done) cs
      | ']' :: cs => some (.list (item :: done).reverse, cs)
      | _ => none := by
  rw [items?]
  simp only [readBack enough ends, Option.bind_eq_bind, Option.bind_some]
  rfl

theorem items?_written {item : Datum} {items : List Datum}
    (each : ∀ part ∈ item :: items, ReadBack part) {depth : Nat} {done : List Datum}
    {rest : List Char} (enough : (writtenItems (item :: items)).length < depth) :
    items? depth done (writtenItems (item :: items) ++ ']' :: rest) =
      some (.list (done.reverse ++ item :: items), rest) := by
  induction items generalizing item depth done with
  | nil =>
    cases depth with
    | zero => contradiction
    | succ depth =>
      rw [writtenItems] at enough ⊢
      rw [items?_item (each item List.mem_cons_self) (by omega)
        (ends_cons (by decide) (by decide)), ← List.reverse_cons]
      rfl
  | cons next items ih =>
    cases depth with
    | zero => contradiction
    | succ depth =>
      rw [writtenItems_cons_cons, List.length_append, List.length_cons] at enough
      have others : items? depth (item :: done) (writtenItems (next :: items) ++ ']' :: rest) =
          some (.list ((item :: done).reverse ++ next :: items), rest) :=
        ih (fun part mem => each part (List.mem_cons_of_mem _ mem)) (by omega)
      rw [List.reverse_cons, List.append_assoc, List.singleton_append] at others
      rw [writtenItems_cons_cons, List.append_assoc, List.cons_append,
        items?_item (each item List.mem_cons_self) (by omega)
          (ends_cons (by decide) (by decide)), ← others]
      rfl

theorem writtenItems_begins {item : Datum} (items : List Datum) (exact : item.Exact) :
    ∃ c cs, writtenItems (item :: items) = c :: cs ∧ isGap c = false ∧ c ≠ ']' := by
  obtain ⟨c, cs, shown, isPart, isOther⟩ := written_begins exact
  cases items with
  | nil => exact ⟨c, cs, by rw [writtenItems, shown], isPart, isOther⟩
  | cons next items =>
    exact ⟨c, _, by rw [writtenItems_cons_cons, shown, List.cons_append], isPart, isOther⟩

theorem readBack_list {items : List Datum} (each : ∀ item ∈ items, item.Exact ∧ ReadBack item) :
    ReadBack (.list items) := by
  intro depth rest enough _
  cases depth with
  | zero => simp [written] at enough
  | succ depth =>
    rw [written, List.length_cons, List.length_append, List.length_singleton] at enough
    rw [written, List.cons_append, List.append_assoc, List.singleton_append, datum?,
      dropGaps_cons (by decide)]
    cases items with
    | nil => rfl
    | cons item items =>
      have all : items? depth [] (writtenItems (item :: items) ++ ']' :: rest) =
          some (.list (item :: items), rest) :=
        items?_written (fun part mem => (each part mem).2) (by omega)
      obtain ⟨c, cs, shown, isPart, isOther⟩ :=
        writtenItems_begins items (each item List.mem_cons_self).1
      rw [shown, List.cons_append] at all ⊢
      simp only [dropGaps_cons isPart]
      split
      · rename_i isEnd
        exact absurd (List.cons.inj isEnd).1 isOther
      · exact all

/-! ## Members -/

theorem writtenMembers_cons_cons (name : String) (datum : Datum) (next : String × Datum)
    (members : List (String × Datum)) :
    writtenMembers ((name, datum) :: next :: members) =
      writtenText name ++ ':' :: (written datum ++ ',' :: writtenMembers (next :: members)) := by
  rw [writtenMembers]
  simp

theorem withMember_of_not_mem {members : List (String × Datum)} {name : String}
    (isNew : name ∉ members.map Prod.fst) (datum : Datum) :
    withMember members name datum = members ++ [(name, datum)] := by
  rw [withMember, List.filter_eq_self.mpr]
  intro member mem
  have other : member.1 ≠ name := fun same => isNew (same ▸ List.mem_map_of_mem mem)
  simpa using other

/-- One member is read back, and what comes after it decides how it goes on. -/
theorem members?_member {name : String} {datum : Datum} (readBack : ReadBack datum) {depth : Nat}
    {done : List (String × Datum)} {tail : List Char} (isNew : name ∉ done.map Prod.fst)
    (enough : (written datum).length ≤ depth) (ends : Ends tail) :
    members? (depth + 1) done (writtenText name ++ ':' :: (written datum ++ tail)) =
      match dropGaps tail with
      | ',' :: cs => members? depth (done ++ [(name, datum)]) cs
      | '\x7d' :: cs => some (.object (done ++ [(name, datum)]), cs)
      | _ => none := by
  have body := textBody_written name.toList [] (':' :: (written datum ++ tail))
  rw [List.reverse_nil, List.nil_append, String.ofList_toList] at body
  rw [members?, writtenText, List.cons_append, List.append_assoc, List.singleton_append,
    dropGaps_cons (by decide)]
  simp only [body, Option.bind_eq_bind, Option.bind_some]
  rw [dropGaps_cons (by decide)]
  simp only [readBack enough ends, Option.bind_some, withMember_of_not_mem isNew]
  rfl

theorem members?_written {member : String × Datum} {members : List (String × Datum)}
    (each : ∀ part ∈ member :: members, ReadBack part.2) {depth : Nat}
    {done : List (String × Datum)} {rest : List Char}
    (nodup : ((done ++ member :: members).map Prod.fst).Nodup)
    (enough : (writtenMembers (member :: members)).length < depth) :
    members? depth done (writtenMembers (member :: members) ++ '\x7d' :: rest) =
      some (.object (done ++ member :: members), rest) := by
  induction members generalizing member depth done with
  | nil =>
    obtain ⟨name, datum⟩ := member
    have first : ReadBack datum := each _ List.mem_cons_self
    cases depth with
    | zero => contradiction
    | succ depth =>
      rw [writtenMembers, List.length_append, List.length_cons] at enough
      rw [writtenMembers, List.append_assoc, List.cons_append,
        members?_member first (by grind) (by omega) (ends_cons (by decide) (by decide))]
      rfl
  | cons next members ih =>
    obtain ⟨name, datum⟩ := member
    have first : ReadBack datum := each _ List.mem_cons_self
    cases depth with
    | zero => contradiction
    | succ depth =>
      rw [writtenMembers_cons_cons] at enough
      simp only [List.length_append, List.length_cons] at enough
      have others : members? depth (done ++ [(name, datum)])
          (writtenMembers (next :: members) ++ '\x7d' :: rest) =
            some (.object (done ++ [(name, datum)] ++ next :: members), rest) :=
        ih (fun part mem => each part (List.mem_cons_of_mem _ mem)) (by simpa using nodup)
          (by omega)
      rw [List.append_assoc, List.singleton_append] at others
      rw [writtenMembers_cons_cons, List.append_assoc, List.cons_append, List.append_assoc,
        List.cons_append, members?_member first (by grind) (by omega)
          (ends_cons (by decide) (by decide)), ← others]
      rfl

theorem readBack_object {members : List (String × Datum)} (nodup : (members.map Prod.fst).Nodup)
    (each : ∀ member ∈ members, ReadBack member.2) : ReadBack (.object members) := by
  intro depth rest enough _
  cases depth with
  | zero => simp [written] at enough
  | succ depth =>
    rw [written, List.length_cons, List.length_append, List.length_singleton] at enough
    rw [written, List.cons_append, List.append_assoc, List.singleton_append, datum?,
      dropGaps_cons (by decide)]
    cases members with
    | nil => rfl
    | cons member members =>
      have all : members? depth [] (writtenMembers (member :: members) ++ '\x7d' :: rest) =
          some (.object (member :: members), rest) :=
        members?_written each nodup (by omega)
      obtain ⟨cs, shown⟩ : ∃ cs, writtenMembers (member :: members) = '"' :: cs := by
        cases members with
        | nil => exact ⟨_, by rw [writtenMembers, writtenText, List.cons_append]⟩
        | cons next members =>
          exact ⟨_, by rw [writtenMembers_cons_cons, writtenText, List.cons_append]⟩
      rw [shown, List.cons_append] at all ⊢
      simp only [dropGaps_cons (show isGap '"' = false by decide)]
      exact all

/-! ## Documents -/

theorem readBack_of_exact {datum : Datum} (exact : datum.Exact) : ReadBack datum := by
  induction exact with
  | null =>
    intro depth rest enough _
    cases depth with
    | zero => contradiction
    | succ depth => rfl
  | bool value =>
    intro depth rest enough _
    cases depth with
    | zero => cases value <;> contradiction
    | succ depth => cases value <;> rfl
  | int low high => exact readBack_int low high
  | text value => exact readBack_text value
  | list each ih => exact readBack_list fun item mem => ⟨each item mem, ih item mem⟩
  | object nodup _ ih => exact readBack_object nodup ih

/-- The document of a datum is read as this datum, if it is one that documents keep exactly. -/
theorem read?_write {datum : Datum} (exact : datum.Exact) : read? (write datum) = some datum := by
  have front : datum? (2 * (written datum).length + 2) (written datum ++ []) = some (datum, []) :=
    readBack_of_exact exact (by omega) ends_nil
  rw [List.append_nil] at front
  simp only [read?, write, String.toList_ofList, front, Option.bind_eq_bind, Option.bind_some]
  rfl

end Document

end Metrology
