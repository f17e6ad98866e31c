import Std.Data.ExtTreeMap
import Metrology.Component.Basic
import Metrology.Text.Items
import Metrology.Text.Numeral

/-! # Settings

Settings map keys to texts, which can be read as lists, truth values or whole numbers. A component
sees the global settings overlaid with the ones set for it alone.
-/

namespace Metrology

/-- The settings visible from one component. -/
structure Settings where
  properties : Std.ExtTreeMap String String := ∅

namespace Settings

/-- The settings of a list of keys and texts; of two texts under one key the last one counts. -/
def ofList (properties : List (String × String)) : Settings :=
  ⟨Std.ExtTreeMap.ofList properties⟩

/-- Settings are those of their own list. -/
theorem ofList_toList (settings : Settings) : ofList settings.properties.toList = settings := by
  obtain ⟨properties⟩ := settings
  refine congrArg Settings.mk (Std.ExtTreeMap.ext_getElem? fun key => ?_)
  cases held : properties[key]? with
  | some text =>
    exact Std.ExtTreeMap.getElem?_ofList_of_mem Std.ReflCmp.compare_self
      Std.ExtTreeMap.distinct_keys_toList
      (Std.ExtTreeMap.mem_toList_iff_getElem?_eq_some.mpr held)
  | none =>
    refine Std.ExtTreeMap.getElem?_ofList_of_contains_eq_false ?_
    rw [List.contains_eq_mem, decide_eq_false_iff_not]
    intro listed
    obtain ⟨⟨_, text⟩, mem, rfl⟩ := List.mem_map.mp listed
    have held' := Std.ExtTreeMap.mem_toList_iff_getElem?_eq_some.mp mem
    rw [held] at held'
    contradiction

def contains (settings : Settings) (key : String) : Bool :=
  settings.properties.contains key

/-- The text under a key. -/
def string? (settings : Settings) (key : String) : Option String :=
  settings.properties[key]?

/-- The text under a key as a comma-separated list; a key that is not set gives the empty list. -/
def strings (settings : Settings) (key : String) : List String :=
  match settings.string? key with
  | some text => Text.items text
  | none => []

/-- The text under a key as a truth value, if it is `true` or `false` but for blanks around it. -/
def bool? (settings : Settings) (key : String) : Option Bool :=
  match (settings.string? key).map Text.trim with
  | some "true" => some true
  | some "false" => some false
  | _ => none

/-- The text under a key as a whole number of 64 bits, if it is one but for blanks around it. -/
def int64? (settings : Settings) (key : String) : Option Int64 :=
  (settings.string? key).bind fun text => Text.int64OfString? (Text.trim text)

/-- The settings of both; where both set a key, the overlay counts. -/
def overlaidWith (base overlay : Settings) : Settings :=
  ⟨base.properties ∪ overlay.properties⟩

end Settings

/-- Where components get their settings from. -/
abbrev SettingsSource := Component → Settings

/-- Global settings and the settings of single components, by component key. -/
structure LayeredSettings where
  globals : Settings := {}
  overrides : Std.ExtTreeMap String Settings := ∅

/-- What a component sees: its own settings laid over the global ones. -/
def LayeredSettings.source (layers : LayeredSettings) : SettingsSource := fun c =>
  match layers.overrides[c.key]? with
  | some own => layers.globals.overlaidWith own
  | none => layers.globals

end Metrology
