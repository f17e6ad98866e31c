import Metrology.Crawl.DepthLimit
import Metrology.Interchange.Datum
import Metrology.Pass

/-! # The shapes of exchanged values

How the plain values of the library are written as data and read back: what is written is always
read as what it was. A structure is an object with a member for each field; members it does not know
are ignored. It may also be read from a list of its fields in order. An optional field may be left
out or be null, and is written as null.
-/

namespace Metrology

/-- Types with a shape as data. -/
class Shape (α : Type) where
  read? : Datum → Option α
  write : α → Datum
  read?_write : ∀ a, read? (write a) = some a

namespace Shape

attribute [simp] read?_write

variable {α : Type}

/-- A named alternative is read from its name. -/
def readName? [Named α] : Datum → Option α
  | .text name => Named.ofLabel? name
  | _ => none

/-- A named alternative may also be read from an object with its name as the only member and null
under it. -/
def readNamed? [Named α] : Datum → Option α
  | .object [(name, .null)] => Named.ofLabel? name
  | datum => readName? datum

def writeNamed [Named α] (a : α) : Datum :=
  .text (Named.label a)

theorem readName?_writeNamed [Named α] (a : α) : readName? (writeNamed a) = some a :=
  Named.ofLabel?_label a

theorem readNamed?_writeNamed [Named α] (a : α) : readNamed? (writeNamed a) = some a :=
  readName?_writeNamed a

/-- The fields of a structure in their order, none for a member that is left out. -/
def fields? (names : List String) : Datum → Option (List (Option Datum))
  | .object members => some (names.map fun name => members.lookup name)
  | .list items => if items.length = names.length then some (items.map some) else none
  | _ => none

/-- An optional field. -/
def readOptional? [Shape α] : Option Datum → Option (Option α)
  | none | some .null => some none
  | some datum => (read? datum).map some

def writeOptional [Shape α] : Option α → Datum
  | none => .null
  | some a => write a

theorem readOptional?_writeOptional [Shape α] (present : ∀ a : α, write a ≠ .null)
    (held : Option α) : readOptional? (some (writeOptional held)) = some held := by
  cases held with
  | none => rfl
  | some a =>
    rw [writeOptional, readOptional?, read?_write]
    · rfl
    · exact present a

/-- The members of an object whose names are not fixed. -/
def readMembers? [Shape α] (members : List (String × Datum)) : Option (List (String × α)) :=
  members.mapM fun (name, datum) => do return (name, ← read? datum)

def writeMembers [Shape α] (members : List (String × α)) : List (String × Datum) :=
  members.map fun (name, a) => (name, write a)

@[simp]
theorem readMembers?_writeMembers [Shape α] (members : List (String × α)) :
    readMembers? (writeMembers members) = some members := by
  rw [readMembers?, writeMembers]
  induction members with
  | nil => rfl
  | cons member members ih =>
    rw [List.map_cons, List.mapM_cons, ih]
    simp

instance : Shape Bool where
  read?
    | .bool b => some b
    | _ => none
  write := .bool
  read?_write _ := rfl

instance : Shape String where
  read?
    | .text s => some s
    | _ => none
  write := .text
  read?_write _ := rfl

@[simp]
theorem readOptional?_writeOptional_text (held : Option String) :
    readOptional? (some (writeOptional held)) = some held :=
  readOptional?_writeOptional (fun _ isNull => by contradiction) held

instance : Shape Int32 where
  read?
    | .int n =>
      if Int32.minValue.toInt ≤ n ∧ n ≤ Int32.maxValue.toInt then some (Int32.ofInt n) else none
    | _ => none
  write n := .int n.toInt
  read?_write n :=
    (if_pos ⟨n.minValue_le_toInt, n.toInt_le⟩).trans (congrArg some n.ofInt_toInt)

instance : Shape Int64 where
  read?
    | .int n =>
      if Int64.minValue.toInt ≤ n ∧ n ≤ Int64.maxValue.toInt then some (Int64.ofInt n) else none
    | _ => none
  write n := .int n.toInt
  read?_write n :=
    (if_pos ⟨n.minValue_le_toInt, n.toInt_le⟩).trans (congrArg some n.ofInt_toInt)

/-- A double may also be read from a whole number. -/
instance : Shape Float where
  read?
    | .real x => some x
    | .int n => some (Float.ofInt n)
    | _ => none
  write := .real
  read?_write _ := rfl

instance : Shape MetricType := ⟨readNamed?, writeNamed, readNamed?_writeNamed⟩

instance : Shape ValueType := ⟨readNamed?, writeNamed, readNamed?_writeNamed⟩

instance : Shape Level := ⟨readNamed?, writeNamed, readNamed?_writeNamed⟩

instance : Shape ComponentKind := ⟨readNamed?, writeNamed, readNamed?_writeNamed⟩

instance : Shape CrawlOrder := ⟨readNamed?, writeNamed, readNamed?_writeNamed⟩

instance : Shape Metric where
  read? datum := do
    let [some key, some name, some type] ← fields? ["key", "name", "metric_type"] datum | none
    return ⟨← read? key, ← read? type, ← read? name⟩
  write metric :=
    .object [("key", write metric.key), ("name", write metric.name),
      ("metric_type", write metric.type)]
  read?_write metric := by simp [fields?, List.lookup_cons]

instance : Shape DepthLimit where
  read? datum := do
    let [some report, some views] ← fields? ["report", "views"] datum | none
    return ⟨← read? report, ← read? views⟩
  write limit := .object [("report", write limit.report), ("views", write limit.views)]
  read?_write limit := by simp [fields?, List.lookup_cons]

instance : Shape PassOptions where
  read? datum := do
    let [some limit, some traced] ← fields? ["max_depth", "trace_measures"] datum | none
    return ⟨← read? limit, ← read? traced⟩
  write options :=
    .object [("max_depth", write options.limit), ("trace_measures", write options.traced)]
  read?_write options := by simp [fields?, List.lookup_cons]

instance : Shape Settings where
  read? datum := do
    let [some (.object members)] ← fields? ["properties"] datum | none
    return Settings.ofList (← readMembers? members)
  write settings := .object [("properties", .object (writeMembers settings.properties.toList))]
  read?_write settings := by simp [fields?, List.lookup_cons, Settings.ofList_toList]

instance : Shape ReportAttributes where
  read? datum := do
    let [some reference, version, path] ← fields? ["reference", "version", "path"] datum | none
    return ⟨← read? reference, ← readOptional? version, ← readOptional? path⟩
  write attributes :=
    .object [("reference", write attributes.reference),
      ("version", writeOptional attributes.version), ("path", writeOptional attributes.path)]
  read?_write attributes := by simp [fields?, List.lookup_cons]

instance : Shape FileAttributes where
  read? datum := do
    let [some unitTest, languageKey] ← fields? ["unit_test", "language_key"] datum | none
    return ⟨← read? unitTest, ← readOptional? languageKey⟩
  write attributes :=
    .object [("unit_test", write attributes.unitTest),
      ("language_key", writeOptional attributes.languageKey)]
  read?_write attributes := by simp [fields?, List.lookup_cons]

instance : Shape ProjectViewAttributes where
  read? datum := do
    let [some projectUuid] ← fields? ["project_uuid"] datum | none
    return ⟨← read? projectUuid⟩
  write attributes := .object [("project_uuid", write attributes.projectUuid)]
  read?_write attributes := by simp [fields?, List.lookup_cons]

/-- The type that a value is tagged with. At the head of a list it stands by its bare name. -/
def readTag? (datum tag : Datum) : Option ValueType :=
  match datum with
  | .list _ => readName? tag
  | _ => readNamed? tag

@[simp]
theorem readTag?_write (members : List (String × Datum)) (type : ValueType) :
    readTag? (.object members) (write type) = some type :=
  read?_write type

/-- A value is tagged with its type. No value needs no content, or null. -/
instance : Shape Value where
  read? datum := do
    let [some tag, content] ← fields? ["type", "value"] datum | none
    match ← readTag? datum tag, content with
    | .noValue, none | .noValue, some .null => return .noValue
    | .noValue, some _ => none
    | _, none => none
    | .boolean, some content => (read? content).map .boolean
    | .int, some content => (read? content).map .int
    | .long, some content => (read? content).map .long
    | .double, some content => (read? content).map .double
    | .string, some content => (read? content).map .string
    | .level, some content => (read? content).map .level
  write
    | .noValue => .object [("type", write ValueType.noValue)]
    | .boolean b => .object [("type", write ValueType.boolean), ("value", write b)]
    | .int n => .object [("type", write ValueType.int), ("value", write n)]
    | .long n => .object [("type", write ValueType.long), ("value", write n)]
    | .double x => .object [("type", write ValueType.double), ("value", write x)]
    | .string s => .object [("type", write ValueType.string), ("value", write s)]
    | .level l => .object [("type", write ValueType.level), ("value", write l)]
  read?_write value := by cases value <;> simp [fields?, List.lookup_cons]

instance : Shape Measure where
  read? datum := do
    let [some metric, some value] ← fields? ["metric_key", "value"] datum | none
    return ⟨← read? metric, ← read? value⟩
  write measure := .object [("metric_key", write measure.metric), ("value", write measure.value)]
  read?_write measure := by simp [fields?, List.lookup_cons]

instance : Shape Record where
  read? datum := do
    let [some component, some metric, some value] ←
      fields? ["component_key", "metric_key", "value"] datum | none
    return ⟨← read? component, ← read? metric, ← read? value⟩
  write record :=
    .object [("component_key", write record.component), ("metric_key", write record.metric),
      ("value", write record.value)]
  read?_write record := by simp [fields?, List.lookup_cons]

end Shape

end Metrology
