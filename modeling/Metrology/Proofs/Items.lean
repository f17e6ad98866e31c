import Mathlib.Data.List.DropRight
import Metrology.Settings

/-! # Lists of items

A setting is read as a list by cutting its text at the commas, taking the blanks off both ends of
each piece and leaving out the pieces that are then empty. A text with a comma gives the items of
both sides, and one without gives itself without the blanks at its ends, or nothing. By these two
laws the items of a text, joined by commas, are read back. The text that counts for a component is
its own if it has one under the key, and the global one otherwise.
-/

namespace Metrology

namespace Text

/-! ## Blanks at the ends -/

/-- No blank stands at either end of the text. -/
structure Unpadded (s : String) : Prop where
  first : ∀ c, s.toList.head? = some c → isBlank c = false
  last : ∀ c, s.toList.getLast? = some c → isBlank c = false

theorem unpadded_iff {s : String} :
    Unpadded s ↔ s.toList.head?.any isBlank = false ∧ s.toList.getLast?.any isBlank = false := by
  rw [Option.any_eq_false, Option.any_eq_false]
  exact ⟨fun ends => ⟨ends.first, ends.last⟩, fun ⟨first, last⟩ => ⟨first, last⟩⟩

instance (s : String) : Decidable (Unpadded s) :=
  decidable_of_iff' _ unpadded_iff

/-- The core is what remains of the text without the blanks at either end. -/
def Trimmed (s core : String) : Prop :=
  ∃ before after, s = before ++ core ++ after ∧ allBlank before = true ∧ allBlank after = true ∧
    Unpadded core

theorem allBlank_iff {s : String} : allBlank s = true ↔ ∀ c ∈ s.toList, isBlank c = true :=
  List.all_eq_true

theorem dropWhile_isBlank_append {before cs : List Char} (blank : ∀ c ∈ before, isBlank c = true)
    (first : ∀ c, cs.head? = some c → isBlank c = false) :
    (before ++ cs).dropWhile isBlank = cs := by
  rw [List.dropWhile_append_of_pos blank]
  cases cs with
  | nil => rfl
  | cons c cs => exact List.dropWhile_cons_of_neg (by simp [first c rfl])

theorem trim_eq_of_trimmed {s core : String} (trimmed : Trimmed s core) : trim s = core := by
  obtain ⟨before, after, rfl, blankBefore, blankAfter, unpadded⟩ := trimmed
  rw [allBlank_iff] at blankBefore blankAfter
  rw [← String.toList_inj, trim, String.toList_ofList, trimChars]
  simp only [String.toList_append, List.append_assoc]
  -- Dropping blanks stops at an end of the core, which an empty one does not have.
  by_cases empty : core.toList = []
  · have blank : ∀ c ∈ before.toList ++ after.toList, isBlank c = true :=
      fun c mem => (List.mem_append.mp mem).elim (blankBefore c) (blankAfter c)
    rw [empty, List.nil_append, List.dropWhile_eq_nil_iff.mpr blank]
    rfl
  · have first : ∀ c, (core.toList ++ after.toList).head? = some c → isBlank c = false := by
      rw [List.head?_append_of_ne_nil _ empty]
      exact unpadded.first
    have last : ∀ c, core.toList.reverse.head? = some c → isBlank c = false := by
      rw [List.head?_reverse]
      exact unpadded.last
    have blankReverse : ∀ c ∈ after.toList.reverse, isBlank c = true :=
      fun c mem => blankAfter c (List.mem_reverse.mp mem)
    rw [dropWhile_isBlank_append blankBefore first, List.reverse_append,
      dropWhile_isBlank_append blankReverse last, List.reverse_reverse]

theorem isBlank_of_head?_dropWhile {cs : List Char} {c : Char}
    (head : (cs.dropWhile isBlank).head? = some c) : isBlank c = false := by
  have stops := List.head?_dropWhile_not isBlank cs
  rwa [head] at stops

theorem trimChars_eq_rdropWhile (cs : List Char) :
    trimChars cs = (cs.dropWhile isBlank).rdropWhile isBlank :=
  rfl

theorem unpadded_trim (s : String) : Unpadded (trim s) where
  first c head := by
    rw [trim, String.toList_ofList, trimChars_eq_rdropWhile] at head
    obtain ⟨after, rest⟩ := List.rdropWhile_prefix isBlank (s.toList.dropWhile isBlank)
    have head' : (s.toList.dropWhile isBlank).head? = some c := by
      rw [← rest, List.head?_append, head, Option.some_or]
    exact isBlank_of_head?_dropWhile head'
  last c last := by
    rw [trim, String.toList_ofList, trimChars, List.getLast?_reverse] at last
    exact isBlank_of_head?_dropWhile last

theorem trimmed_trim (s : String) : Trimmed s (trim s) := by
  refine ⟨String.ofList (s.toList.takeWhile isBlank),
    String.ofList ((s.toList.dropWhile isBlank).rtakeWhile isBlank), ?_, ?_, ?_, unpadded_trim s⟩
  · rw [← String.toList_inj, trim, trimChars_eq_rdropWhile]
    simp only [String.toList_append, String.toList_ofList, List.append_assoc]
    rw [List.rdropWhile_append_rtakeWhile, List.takeWhile_append_dropWhile]
  · rw [allBlank, String.toList_ofList]
    exact List.all_takeWhile
  · rw [allBlank_iff, String.toList_ofList]
    exact fun c mem => List.mem_rtakeWhile_imp mem

/-- Trimming gives the core, and there is but one. -/
theorem trimmed_iff {s core : String} : Trimmed s core ↔ trim s = core := by
  constructor
  · exact trim_eq_of_trimmed
  · rintro rfl
    exact trimmed_trim s

/-! ## Cutting at commas -/

/-- A text that is an item of a list as it stands. -/
structure IsItem (s : String) : Prop where
  nonempty : s ≠ ""
  commaFree : ',' ∉ s.toList
  unpadded : Unpadded s

instance (s : String) : Decidable (IsItem s) :=
  decidable_of_iff (s ≠ "" ∧ ',' ∉ s.toList ∧ Unpadded s)
    ⟨fun ⟨nonempty, commaFree, unpadded⟩ => ⟨nonempty, commaFree, unpadded⟩,
      fun item => ⟨item.nonempty, item.commaFree, item.unpadded⟩⟩

theorem pieces_eq_splitOn (cs : List Char) : pieces cs = cs.splitOn ',' := by
  induction cs with
  | nil => rfl
  | cons c cs ih =>
    rw [pieces, ih, List.splitOn_cons_eq_if_modifyHead]
    by_cases comma : c = ','
    · simp [comma]
    · obtain ⟨piece, rest, cut⟩ := List.exists_cons_of_ne_nil (List.splitOn_ne_nil ',' cs)
      simp [comma, cut]

/-- The items on both sides of a comma are read apart. -/
theorem items_append (a b : String) : items (a ++ "," ++ b) = items a ++ items b := by
  have cut : (a ++ "," ++ b).toList = a.toList ++ ',' :: b.toList := by simp
  simp only [items, itemChars, pieces_eq_splitOn, cut, List.splitOn_append_cons_self,
    List.map_append, List.filter_append]

theorem items_of_commaFree {s : String} (commaFree : ',' ∉ s.toList) :
    items s = if trim s = "" then [] else [trim s] := by
  rw [items, itemChars, pieces_eq_splitOn, List.splitOn_eq_singleton commaFree, trim]
  by_cases empty : trimChars s.toList = [] <;> simp [empty]

/-- Every text has no comma or is cut at one. -/
theorem cut_induction {motive : String → Prop} (whole : ∀ s, ',' ∉ s.toList → motive s)
    (cut : ∀ a b, motive a → motive b → motive (a ++ "," ++ b)) (s : String) : motive s := by
  by_cases comma : ',' ∈ s.toList
  · obtain ⟨before, after, split, free⟩ := List.eq_append_cons_of_mem comma
    have shorter : after.length < s.length := by
      rw [← String.length_toList, split, List.length_append, List.length_cons]
      omega
    have joined : s = String.ofList before ++ "," ++ String.ofList after := by
      rw [← String.toList_inj, split]
      simp
    rw [joined]
    exact cut _ _ (whole _ (by simpa using free)) (cut_induction whole cut (String.ofList after))
  · exact whole s comma
termination_by s.length
decreasing_by simpa using shorter

theorem isItem_of_mem_items {s item : String} (mem : item ∈ items s) : IsItem item := by
  induction s using cut_induction with
  | whole s commaFree =>
    rw [items_of_commaFree commaFree] at mem
    split at mem
    · exact absurd mem List.not_mem_nil
    · rename_i nonempty
      obtain rfl := List.mem_singleton.mp mem
      obtain ⟨before, after, split, -, -, unpadded⟩ := trimmed_trim s
      refine ⟨nonempty, fun comma => commaFree ?_, unpadded⟩
      rw [split]
      simp [comma]
  | cut a b first second =>
    rw [items_append, List.mem_append] at mem
    exact mem.elim first second

/-! ## Joining by commas -/

theorem items_of_isItem {item : String} (isItem : IsItem item) : items item = [item] := by
  have itself : trim item = item :=
    trim_eq_of_trimmed ⟨"", "", by simp, rfl, rfl, isItem.unpadded⟩
  rw [items_of_commaFree isItem.commaFree, itself, if_neg isItem.nonempty]

/-- Items that are joined by commas are read back. -/
theorem items_intercalate {found : List String} (areItems : ∀ item ∈ found, IsItem item) :
    items (",".intercalate found) = found := by
  induction found with
  | nil => rfl
  | cons item found ih =>
    obtain ⟨isItem, areItems⟩ := List.forall_mem_cons.mp areItems
    cases found with
    | nil => rw [String.intercalate_singleton, items_of_isItem isItem]
    | cons next found =>
      rw [String.intercalate_cons_cons, items_append, items_of_isItem isItem, ih areItems,
        List.singleton_append]

end Text

/-! ## What a component sees -/

/-- Of two texts under one key that of the overlay counts. -/
theorem Settings.string?_overlaidWith (base overlay : Settings) (key : String) :
    (base.overlaidWith overlay).string? key = (overlay.string? key).or (base.string? key) :=
  Std.ExtTreeMap.getElem?_union

namespace LayeredSettings

/-- The text that counts for a component: the one set for it alone if there is one, and otherwise
the global one. -/
def effective? (layers : LayeredSettings) (c : Component) (key : String) : Option String :=
  ((layers.overrides[c.key]?).bind fun own => own.string? key).or (layers.globals.string? key)

theorem string?_source (layers : LayeredSettings) (c : Component) (key : String) :
    (layers.source c).string? key = layers.effective? c key := by
  rw [source, effective?]
  cases layers.overrides[c.key]? with
  | none => rfl
  | some own => exact Settings.string?_overlaidWith layers.globals own key

theorem strings_source (layers : LayeredSettings) (c : Component) (key : String) :
    (layers.source c).strings key = (layers.effective? c key).elim [] Text.items := by
  rw [Settings.strings, string?_source]
  cases layers.effective? c key <;> rfl

/-- Lists are read from the text that counts for a component, its own or else the global one, and
are empty where there is none. A text with a comma gives the items of both sides, and one without
gives what trimming leaves of it, if anything, which is the text without the blanks at either end.
So no item is empty, holds a comma or has a blank at either end. Items joined by commas are read
back, be they those of a text or any list of such items. -/
theorem strings_split_and_rejoin :
    (∀ a b, Text.items (a ++ "," ++ b) = Text.items a ++ Text.items b) ∧
    (∀ s, ',' ∉ s.toList → Text.items s = if Text.trim s = "" then [] else [Text.trim s]) ∧
    (∀ s core, Text.Trimmed s core ↔ Text.trim s = core) ∧
    (∀ s, (∀ item ∈ Text.items s, Text.IsItem item) ∧
      Text.items (",".intercalate (Text.items s)) = Text.items s) ∧
    (∀ found, (∀ item ∈ found, Text.IsItem item) → Text.items (",".intercalate found) = found) ∧
    ∀ (layers : LayeredSettings) (c : Component) (key : String),
      (layers.source c).string? key = layers.effective? c key ∧
      (layers.source c).strings key = (layers.effective? c key).elim [] Text.items := by
  have areItems (s : String) : ∀ item ∈ Text.items s, Text.IsItem item :=
    fun item => Text.isItem_of_mem_items
  refine ⟨Text.items_append, fun s => Text.items_of_commaFree, fun s core => Text.trimmed_iff,
    fun s => ?_, fun found => ?_, ?_⟩
  · exact ⟨areItems s, Text.items_intercalate (areItems s)⟩
  · exact Text.items_intercalate
  · exact fun layers c key => ⟨layers.string?_source c key, layers.strings_source c key⟩

end LayeredSettings

namespace ItemWitnesses

def file : Component := .node ⟨"F", none, "F", .file ⟨2, none, none⟩ {}⟩ []

/-- The file has exclusions of its own, with blanks around the only one, and shares the inclusions. -/
def layers : LayeredSettings where
  globals := Settings.ofList [("exclusions", "gen"), ("inclusions", "lib,src")]
  overrides := Std.ExtTreeMap.ofList [("F", Settings.ofList [("exclusions", "\u2003a b , ")])]

/-- Cutting and trimming leave one exclusion, and the inclusions are read back as they were joined. -/
theorem strings_split_and_rejoin_file :
    ',' ∉ "\u2003a b ".toList ∧ ',' ∉ " ".toList ∧ (∀ item ∈ ["lib", "src"], Text.IsItem item) ∧
    (layers.source file).strings "exclusions" = ["a b"] ∧
    (layers.source file).strings "inclusions" = ["lib", "src"] := by
  obtain ⟨cut, whole, -, -, rejoin, seen⟩ := LayeredSettings.strings_split_and_rejoin
  have around : ',' ∉ "\u2003a b ".toList := by decide
  have beyond : ',' ∉ " ".toList := by decide
  have areItems : ∀ item ∈ ["lib", "src"], Text.IsItem item := by decide
  refine ⟨around, beyond, areItems, ?_, ?_⟩
  · have own : layers.effective? file "exclusions" = some ("\u2003a b " ++ "," ++ " ") := by
      decide +kernel
    rw [(seen layers file "exclusions").2, own, Option.elim_some, cut, whole _ around,
      whole _ beyond]
    decide +kernel
  · have shared : layers.effective? file "inclusions" =
        some (",".intercalate ["lib", "src"]) := by decide +kernel
    rw [(seen layers file "inclusions").2, shared, Option.elim_some, rejoin _ areItems]

end ItemWitnesses

end Metrology
