import Metrology.Interchange.Number
import Metrology.Text.Decimal

/-! # Documents

The written form of data: a document is the text of one datum, with blanks around its parts. Each
reader here takes what it knows from the front of a text and gives what it read and the rest. The
writers put no blanks.
-/

namespace Metrology

namespace Document

/-- A space, a tab or the end of a line: what may stand between the parts of a document. -/
def isGap (c : Char) : Bool :=
  c == ' ' || c == '\t' || c == '\n' || c == '\r'

/-- The text without the gaps at its front. -/
def dropGaps (cs : List Char) : List Char :=
  cs.dropWhile isGap

/-! ## Texts -/

/-- The worth of a hexadecimal digit. -/
def hexDigit? (c : Char) : Option Nat :=
  if '0' ≤ c ∧ c ≤ '9' then some (c.toNat - '0'.toNat)
  else if 'a' ≤ c ∧ c ≤ 'f' then some (c.toNat - 'a'.toNat + 10)
  else if 'A' ≤ c ∧ c ≤ 'F' then some (c.toNat - 'A'.toNat + 10)
  else none

/-- The number that hexadecimal digits stand for. -/
def ofHex? (cs : List Char) : Option Nat := do
  return (← cs.mapM hexDigit?).foldl (fun n digit => 16 * n + digit) 0

/-- The character that a one-letter escape stands for. -/
def escaped? : Char → Option Char
  | '"' => some '"'
  | '\\' => some '\\'
  | '/' => some '/'
  | 'b' => some '\x08'
  | 'f' => some '\x0c'
  | 'n' => some '\n'
  | 'r' => some '\r'
  | 't' => some '\t'
  | _ => none

/-- The first half of a pair that stands for one character. -/
def isHighHalf (unit : Nat) : Bool :=
  0xD800 ≤ unit && unit < 0xDC00

/-- The second half of a pair that stands for one character. -/
def isLowHalf (unit : Nat) : Bool :=
  0xDC00 ≤ unit && unit < 0xE000

/-- The character that two halves stand for. -/
def ofHalves (high low : Nat) : Char :=
  Char.ofNat (0x10000 + (high - 0xD800) * 0x400 + (low - 0xDC00))

/-- Reads a text to its closing quotation mark; `done` are the characters before, in reverse. -/
def textBody (done : List Char) : List Char → Option (String × List Char)
  | '"' :: cs => some (String.ofList done.reverse, cs)
  | '\\' :: 'u' :: a :: b :: c :: d :: '\\' :: 'u' :: e :: f :: g :: h :: cs => do
    let unit ← ofHex? [a, b, c, d]
    if isHighHalf unit then
      let low ← ofHex? [e, f, g, h]
      if isLowHalf low then textBody (ofHalves unit low :: done) cs else none
    else if isLowHalf unit then none
    else textBody (Char.ofNat unit :: done) ('\\' :: 'u' :: e :: f :: g :: h :: cs)
  | '\\' :: 'u' :: a :: b :: c :: d :: cs => do
    let unit ← ofHex? [a, b, c, d]
    if isHighHalf unit || isLowHalf unit then none
    else textBody (Char.ofNat unit :: done) cs
  | '\\' :: c :: cs => do textBody ((← escaped? c) :: done) cs
  | c :: cs => if c.toNat < 0x20 then none else textBody (c :: done) cs
  | [] => none

/-! ## Numbers -/

/-- The decimal digits at the front. -/
def digits (cs : List Char) : List Nat × List Char :=
  ((cs.takeWhile Char.isDigit).map fun c => c.toNat - '0'.toNat, cs.dropWhile Char.isDigit)

/-- The decimal digits at the front, at least one. -/
def someDigits? (cs : List Char) : Option (List Nat × List Char) :=
  let (found, rest) := digits cs
  if found.isEmpty then none else some (found, rest)

/-- The sign at the front if it is a minus. -/
def minus : List Char → Bool × List Char
  | '-' :: cs => (true, cs)
  | cs => (false, cs)

/-- The sign at the front, plus or minus. -/
def sign : List Char → Bool × List Char
  | '+' :: cs => (false, cs)
  | cs => minus cs

/-- The point and the digits after it, if there is a point. -/
def fraction? : List Char → Option (Option (List Nat) × List Char)
  | '.' :: cs => (someDigits? cs).map fun (found, rest) => (some found, rest)
  | cs => some (none, cs)

/-- The power of ten, if there is one. -/
def exponent? : List Char → Option (Option Int × List Char)
  | c :: cs =>
    if c == 'e' || c == 'E' then do
      let (negative, cs) := sign cs
      let (found, rest) ← someDigits? cs
      let magnitude : Nat := found.foldl (fun n digit => 10 * n + digit) 0
      return (some (if negative then -(magnitude : Int) else magnitude), rest)
    else some (none, c :: cs)
  | [] => some (none, [])

/-- Reads a number; a zero at its front stands alone before the point. -/
def number? (cs : List Char) : Option (Datum × List Char) := do
  let (negative, cs) := minus cs
  let (whole, cs) ← someDigits? cs
  if whole.length > 1 && whole.head? == some 0 then none
  else do
    let (fraction, cs) ← fraction? cs
    let (exponent, cs) ← exponent? cs
    let datum ← WrittenNumber.toDatum? ⟨negative, whole, fraction, exponent⟩
    return (datum, cs)

/-! ## Data -/

/-- Of two members of one name the later one counts. -/
def withMember (members : List (String × Datum)) (name : String) (datum : Datum) :
    List (String × Datum) :=
  members.filter (·.1 != name) ++ [(name, datum)]

mutual

/-- Reads a datum whose parts are nested no deeper than the first argument allows. -/
def datum? : Nat → List Char → Option (Datum × List Char)
  | 0, _ => none
  | depth + 1, cs =>
    match dropGaps cs with
    | 'n' :: 'u' :: 'l' :: 'l' :: cs => some (.null, cs)
    | 't' :: 'r' :: 'u' :: 'e' :: cs => some (.bool true, cs)
    | 'f' :: 'a' :: 'l' :: 's' :: 'e' :: cs => some (.bool false, cs)
    | '"' :: cs => (textBody [] cs).map fun (text, cs) => (.text text, cs)
    | '[' :: cs =>
      match dropGaps cs with
      | ']' :: cs => some (.list [], cs)
      | cs => items? depth [] cs
    | '\x7b' :: cs =>
      match dropGaps cs with
      | '\x7d' :: cs => some (.object [], cs)
      | cs => members? depth [] cs
    | cs => number? cs

/-- Reads the items of a list to its closing bracket; `done` are the items before, in reverse. -/
def items? : Nat → List Datum → List Char → Option (Datum × List Char)
  | 0, _, _ => none
  | depth + 1, done, cs => do
    let (item, cs) ← datum? depth cs
    match dropGaps cs with
    | ',' :: cs => items? depth (item :: done) cs
    | ']' :: cs => return (.list (item :: done).reverse, cs)
    | _ => none

/-- Reads the members of an object to its closing brace; `done` are the members before. -/
def members? : Nat → List (String × Datum) → List Char → Option (Datum × List Char)
  | 0, _, _ => none
  | depth + 1, done, cs =>
    match dropGaps cs with
    | '"' :: cs => do
      let (name, cs) ← textBody [] cs
      match dropGaps cs with
      | ':' :: cs => do
        let (datum, cs) ← datum? depth cs
        let done := withMember done name datum
        match dropGaps cs with
        | ',' :: cs => members? depth done cs
        | '\x7d' :: cs => return (.object done, cs)
        | _ => none
      | _ => none
    | _ => none

end

/-- The datum that a text is a document of. Its length bounds the steps of the reading. -/
def read? (text : String) : Option Datum := do
  let cs := text.toList
  let (datum, rest) ← datum? (2 * cs.length + 2) cs
  if (dropGaps rest).isEmpty then some datum else none

/-! ## Writing -/

/-- A character as it stands in a written text. -/
def escape : Char → List Char
  | '"' => ['\\', '"']
  | '\\' => ['\\', '\\']
  | '\x08' => ['\\', 'b']
  | '\x0c' => ['\\', 'f']
  | '\n' => ['\\', 'n']
  | '\r' => ['\\', 'r']
  | '\t' => ['\\', 't']
  | c =>
    if c.toNat < 0x20 then
      ['\\', 'u', '0', '0', Nat.digitChar (c.toNat / 16), Nat.digitChar (c.toNat % 16)]
    else [c]

def writtenText (s : String) : List Char :=
  '"' :: (s.toList.flatMap escape ++ ['"'])

def writtenInt (n : Int) : List Char :=
  if n < 0 then '-' :: Nat.toDigits 10 n.natAbs else Nat.toDigits 10 n.natAbs

/-- What is no number is written as null. -/
def writtenReal (x : Float) : List Char :=
  if x.isFinite then (Text.double x).toList else ['n', 'u', 'l', 'l']

mutual

def written : Datum → List Char
  | .null => ['n', 'u', 'l', 'l']
  | .bool true => ['t', 'r', 'u', 'e']
  | .bool false => ['f', 'a', 'l', 's', 'e']
  | .int n => writtenInt n
  | .real x => writtenReal x
  | .text s => writtenText s
  | .list items => '[' :: (writtenItems items ++ [']'])
  | .object members => '\x7b' :: (writtenMembers members ++ ['\x7d'])

def writtenItems : List Datum → List Char
  | [] => []
  | [item] => written item
  | item :: items => written item ++ ',' :: writtenItems items

def writtenMembers : List (String × Datum) → List Char
  | [] => []
  | [(name, datum)] => writtenText name ++ ':' :: written datum
  | (name, datum) :: members =>
    writtenText name ++ ':' :: (written datum ++ ',' :: writtenMembers members)

end

/-- The document of a datum. -/
def write (datum : Datum) : String :=
  String.ofList (written datum)

end Document

end Metrology
