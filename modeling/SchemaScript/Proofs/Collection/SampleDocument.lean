import SchemaScript.Proofs.Collection.Partition
import SchemaScript.Proofs.Collection.ShellText
import SchemaScript.Proofs.Json.ValueEnd

/-!
# SchemaScript.Proofs.Collection.SampleDocument

The document that a script inserts into a collection fits the schema that the script creates the
collection with (`sample_fits_schema`).

`readDocument` reads the text of a document: an object whose values are JSON or the moment at which
the script is run. A key may stand more than once and then has its last value; all keys are names of
properties, whatever they are called. The schema has each name once, but the document has one member
for each column, so that both have to settle for the same one of the columns of a name.
-/

namespace SchemaScript

/-! ## Documents -/

/-- A value in a document. A JSON number with a fraction is a double. -/
inductive DocumentValue where
  | json (v : Json.Value)
  /-- The moment at which the script is run, written `ISODate()`. -/
  | now

def documentValue? (s : List Char) : Option (DocumentValue × List Char) :=
  match words? ["ISODate", "(", ")"] s with
  | some s => some (.now, s)
  | none => (Json.readValue Json.largestDepth s).toOption.map fun r => (.json r.1, r.2)

def documentMember? (s : List Char) : Option ((String × DocumentValue) × List Char) := do
  let (key, s) ← string? s
  let s ← words? [":"] s
  let (value, s) ← documentValue? s
  some ((key, value), s)

/-- Members with commas between them, up to the closing brace. -/
def documentMembers? : Nat → List Char → Option (List (String × DocumentValue) × List Char)
  | 0, _ => none
  | steps + 1, s => do
    let (member, s) ← documentMember? s
    match words? [","] s with
    | some s => do
      let (members, s) ← documentMembers? steps s
      some (member :: members, s)
    | none => do
      let s ← words? ["\x7d"] s
      some ([member], s)

/-- The members of the document with the given text, in order. -/
def readDocument (text : String) : Option (List (String × DocumentValue)) := do
  let s ← words? ["\x7b"] text.toList
  match words? ["\x7d"] s with
  | some s => if Json.skipSpace s = [] then some [] else none
  | none => do
    let (members, s) ← documentMembers? s.length s
    if Json.skipSpace s = [] then some members else none

/-- The value of a key in a document. -/
def lastValue? (key : String) (members : List (String × DocumentValue)) : Option DocumentValue :=
  members.reverse.lookup key

namespace DocumentValue

/-- The sample for a key of the given type. -/
def sample (key : String) : StorageType → DocumentValue
  | .int => .json (.number (.natural 1))
  | .double => .json (.number (.double 0x3FF0000000000000))
  | .bool => .json (.bool true)
  | .date => .now
  | .object => .json (.object [])
  | .string => .json (.string (key ++ "_value"))

/-- The samples for a key, each with the name that its type has in a schema. -/
def samples (key : String) : List (String × DocumentValue) :=
  [("int", .json (.number (.natural 1))), ("double", .json (.number (.double 0x3FF0000000000000))),
    ("bool", .json (.bool true)), ("date", .now), ("object", .json (.object [])),
    ("string", .json (.string (key ++ "_value")))]

theorem mem_samples (key : String) (storage : StorageType) :
    (storage.bsonName, sample key storage) ∈ samples key := by
  cases storage <;> simp [samples, sample, StorageType.bsonName]

/-- The double among the samples. -/
example : Decimal.doubleText 0x3FF0000000000000 = "1.0" := by decide +kernel

end DocumentValue

/-! ## Values of samples -/

namespace Collection

/-- A comma, or the line feed in front of a brace, which end the values of samples. -/
def EndsValue (rest : List Char) : Prop :=
  ∃ tail, rest = ',' :: tail ∨ rest = '\n' :: tail

theorem documentValue?_json {s rest : List Char} {v : Json.Value}
    (hnow : words? ["ISODate", "(", ")"] s = none)
    (h : Json.readValue Json.largestDepth s = .ok (v, rest)) :
    documentValue? s = some (.json v, rest) := by
  rw [documentValue?, hnow]
  simp only [h]
  rfl

/-- A number is read to its end where the reader sees that it ends. -/
theorem documentValue?_number (text : List Char) (n : Json.Number)
    (hnow : ∀ rest, words? ["ISODate", "(", ")"] (text ++ rest) = none)
    (hcomma : Json.readValue Json.largestDepth (text ++ [',']) = .ok (.number n, [',']))
    (hfeed : Json.readValue Json.largestDepth (text ++ ['\n']) = .ok (.number n, ['\n']))
    {rest : List Char} (hrest : EndsValue rest) :
    documentValue? (text ++ rest) = some (.json (.number n), rest) := by
  refine documentValue?_json (hnow rest) ?_
  obtain ⟨tail, rfl | rfl⟩ := hrest
  · have hread := Json.readValue_append (Nat.le_refl _) hcomma (.inl (by simp)) tail
    simpa using hread
  · have hread := Json.readValue_append (Nat.le_refl _) hfeed (.inl (by simp)) tail
    simpa using hread

theorem documentValue?_spelled {v : Json.Value} {text : List Char}
    (hnow : ∀ rest, words? ["ISODate", "(", ")"] (' ' :: (text ++ rest)) = none)
    (h : Json.Spelled Json.largestDepth v text) (rest : List Char) :
    documentValue? (' ' :: (text ++ rest)) = some (.json v, rest) := by
  refine documentValue?_json (hnow rest) ?_
  have hskip := Json.readValue_skipSpace Json.largestDepth (Json.isSpaces_blanks 1) (text ++ rest)
  exact hskip.trans (Json.readValue_of_spelled h rest)

theorem documentValue?_sampleValue (field : String) (storage : StorageType) {rest : List Char}
    (hrest : EndsValue rest) :
    documentValue? (' ' :: ((sampleValue field storage).toList ++ rest)) =
      some (.sample field storage, rest) := by
  cases storage with
  | int =>
    have hvalue : sampleValue field .int = "1" := rfl
    rw [hvalue]
    exact documentValue?_number [' ', '1'] (.natural 1) (fun _ => rfl) rfl rfl hrest
  | double =>
    have hvalue : sampleValue field .double = "1.0" := rfl
    rw [hvalue]
    exact documentValue?_number [' ', '1', '.', '0'] (.double 0x3FF0000000000000) (fun _ => rfl)
      rfl rfl hrest
  | bool =>
    have hvalue : sampleValue field .bool = "true" := rfl
    rw [hvalue]
    exact documentValue?_spelled (v := .bool true) (fun _ => rfl) rfl rest
  | date =>
    have hvalue : sampleValue field .date = "ISODate()" := rfl
    have hcall : words? ["ISODate", "(", ")"] " ISODate()".toList = some [] := by decide +kernel
    have hnow : words? ["ISODate", "(", ")"] (' ' :: ("ISODate()".toList ++ rest)) = some rest :=
      words?_append (by decide) hcall rest
    rw [hvalue, documentValue?, hnow]
    rfl
  | object =>
    have hvalue : sampleValue field .object = "\x7b\x7d" := rfl
    rw [hvalue]
    exact documentValue?_spelled (v := .object []) (fun _ => rfl)
      ⟨_, rfl, [], .nil Json.isSpaces_nil, rfl⟩ rest
  | string =>
    have hvalue : sampleValue field .string = Json.stringText (field ++ "_value") := rfl
    have htext := Json.toList_stringText (field ++ "_value")
    rw [hvalue]
    refine documentValue?_spelled (v := .string (field ++ "_value")) (fun rest => ?_) htext rest
    rw [htext]
    rfl

/-! ## Members of samples -/

/-- The line of a field, without what ends it. -/
def sampleLine (f : String × StorageType) : String :=
  "  " ++ Json.stringText f.1 ++ ": " ++ sampleValue f.1 f.2

def sampleMember (f : String × StorageType) : String × DocumentValue :=
  (f.1, .sample f.1 f.2)

theorem documentMember?_sampleLine (f : String × StorageType) {ws rest : List Char}
    (hws : Json.IsSpaces ws) (hrest : EndsValue rest) :
    documentMember? (ws ++ ((sampleLine f).toList ++ rest)) = some (sampleMember f, rest) := by
  have hindent : Json.IsSpaces (ws ++ [' ', ' ']) := hws.append (Json.isSpaces_blanks 2)
  have htext : ws ++ ((sampleLine f).toList ++ rest) = (ws ++ [' ', ' ']) ++
      ((Json.stringText f.1).toList ++ ':' :: ' ' :: ((sampleValue f.1 f.2).toList ++ rest)) := by
    simp [sampleLine]
  have hkey (rest : List Char) := string?_stringText hindent f.1 rest
  have hcolon (s : List Char) : words? [":"] (':' :: s) = some s := rfl
  rw [htext]
  simp only [documentMember?, hkey, hcolon, documentValue?_sampleValue f.1 f.2 hrest,
    Option.bind_eq_bind, Option.bind_some]
  rfl

/-- The lines of fields from the first one on, with the brace that closes them. -/
def sampleChars (f : String × StorageType) (fs : List (String × StorageType)) : List Char :=
  (sampleLine f).toList ++
    (fs.flatMap (fun g => ",\n".toList ++ (sampleLine g).toList) ++ "\n\x7d".toList)

theorem sampleChars_nil (f : String × StorageType) :
    sampleChars f [] = (sampleLine f).toList ++ ['\n', '\x7d'] := by
  simp [sampleChars]

theorem sampleChars_cons (f g : String × StorageType) (fs : List (String × StorageType)) :
    sampleChars f (g :: fs) = (sampleLine f).toList ++ ',' :: '\n' :: sampleChars g fs := by
  simp [sampleChars]

theorem length_lt_length_sampleChars (f : String × StorageType)
    (fs : List (String × StorageType)) : fs.length < (sampleChars f fs).length := by
  induction fs generalizing f with
  | nil => simp [sampleChars_nil]
  | cons g fs ih =>
    have hlength := ih g
    simp only [sampleChars_cons, List.length_append, List.length_cons]
    omega

/-- By the fields: each step takes one line, and the brace ends the last one. -/
theorem documentMembers?_sampleChars (fs : List (String × StorageType)) :
    ∀ (f : String × StorageType) (steps : Nat), fs.length < steps →
      documentMembers? steps ('\n' :: sampleChars f fs) =
        some ((f :: fs).map sampleMember, []) := by
  have hfeed : Json.IsSpaces ['\n'] := Json.isSpaces_cons rfl Json.isSpaces_nil
  induction fs with
  | nil =>
    intro f steps hsteps
    obtain ⟨steps, rfl⟩ : ∃ n, steps = n + 1 := ⟨steps - 1, by omega⟩
    have hmember := documentMember?_sampleLine f hfeed ⟨['\x7d'], .inr rfl⟩
    have hcomma : words? [","] ['\n', '\x7d'] = none := rfl
    have hclose : words? ["\x7d"] ['\n', '\x7d'] = some [] := rfl
    rw [List.singleton_append, ← sampleChars_nil] at hmember
    simp only [documentMembers?, hmember, hcomma, hclose, Option.bind_eq_bind, Option.bind_some]
    rfl
  | cons g fs ih =>
    intro f steps hsteps
    rw [List.length_cons] at hsteps
    obtain ⟨steps, rfl⟩ : ∃ n, steps = n + 1 := ⟨steps - 1, by omega⟩
    have hmember := documentMember?_sampleLine f hfeed ⟨'\n' :: sampleChars g fs, .inl rfl⟩
    have hcomma (s : List Char) : words? [","] (',' :: s) = some s := rfl
    have hmembers := ih g steps (by omega)
    rw [List.singleton_append, ← sampleChars_cons] at hmember
    simp only [documentMembers?, hmember, hcomma, hmembers, Option.bind_eq_bind, Option.bind_some]
    rfl

theorem toList_sampleDocument {c : Collection} {f : String × StorageType}
    {fs : List (String × StorageType)} (h : c.fields = f :: fs) :
    c.sampleDocument.toList = '\x7b' :: '\n' :: sampleChars f fs := by
  have hlines : c.sampleDocument =
      "\x7b\n" ++ String.intercalate ",\n" ((f :: fs).map sampleLine) ++ "\n\x7d" := by
    unfold sampleDocument
    rw [h]
    rfl
  have hopen : "\x7b\n".toList = ['\x7b', '\n'] := rfl
  rw [hlines, String.toList_append, String.toList_append, String.toList_intercalate, hopen,
    List.map_cons, List.map_cons, Text.intercalate_cons, List.map_map, List.flatMap_map,
    sampleChars]
  simp

/-- The sample document is read as the samples of the fields, one for each column. -/
theorem readDocument_sampleDocument (c : Collection) :
    readDocument c.sampleDocument = some (c.fields.map sampleMember) := by
  cases hfields : c.fields with
  | nil =>
    unfold sampleDocument
    rw [hfields]
    rfl
  | cons f fs =>
    have hopen (s : List Char) : words? ["\x7b"] ('\x7b' :: s) = some s := rfl
    have hfirst : words? ["\x7d"] ('\n' :: sampleChars f fs) = none := by
      have hline : ∃ tail, (sampleLine f).toList = ' ' :: ' ' :: '"' :: tail := by
        simp [sampleLine, Json.toList_stringText]
      obtain ⟨tail, hline⟩ := hline
      rw [sampleChars, hline]
      rfl
    have hsteps : fs.length < ('\n' :: sampleChars f fs).length :=
      Nat.lt_succ_of_lt (length_lt_length_sampleChars f fs)
    have hend : Json.skipSpace [] = [] := rfl
    rw [readDocument, toList_sampleDocument hfields]
    simp only [hopen, hfirst, documentMembers?_sampleChars fs f _ hsteps, hend, Option.bind_eq_bind,
      Option.bind_some, if_true]

/-! ## Documents and schemas -/

/-- The script creates the collection of a table with its schema and inserts a document. As an
object, in which a key has its last value, the document has the keys of the properties, those that
are required among them, and for each key the sample of the type that the schema gives to it, under
the name that the JSON value of the schema has for this type. -/
theorem sample_fits_schema (s : Scope) (t : Table) :
    let c := ofTable s t
    ∃ document members,
      readShell (String.intercalate "\n\n" [c.createBlock, c.sampleBlock] ++ "\n") =
        some [.createCollection t.name c.schema.toJson, .insertOne t.name document] ∧
      readDocument document = some members ∧
      (∀ key, key ∈ members.map Prod.fst ↔ key ∈ c.schema.properties.map Prod.fst) ∧
      (∀ key ∈ c.schema.required, key ∈ members.map Prod.fst) ∧
      ∀ key property, (key, property) ∈ c.schema.properties →
        lastValue? key members = some (.sample key property.storage) ∧
        ∃ bsonType value, recorded? c.schema.toJson key "bsonType" = some (.string bsonType) ∧
          (bsonType, value) ∈ DocumentValue.samples key ∧
          lastValue? key members = some value := by
  intro c
  have hkeys (key : String) : key ∈ (c.fields.map sampleMember).map Prod.fst ↔
      key ∈ c.schema.properties.map Prod.fst := by
    rw [mem_keys_properties, ← names_fields, List.map_map]
    rfl
  refine ⟨c.sampleDocument, c.fields.map sampleMember, ?_, readDocument_sampleDocument c, hkeys,
    fun key hkey => (hkeys key).mpr (mem_keys_of_mem_required hkey), fun key property hmem => ?_⟩
  · have hname : c.name = t.name := rfl
    have hblocks := (holds_createBlock c).append (HoldsCommands.feed.append (holds_sampleBlock c))
    rw [hname] at hblocks
    exact HoldsCommands.readShell_eq (by simpa [String.toList_intercalate] using hblocks)
  · have hrecorded := (recorded?_toJson (Entries.nodup_keys_merge _) hmem).1
    suffices hvalue : lastValue? key (c.fields.map sampleMember) =
        some (.sample key property.storage) from
      ⟨hvalue, _, _, hrecorded, DocumentValue.mem_samples key property.storage, hvalue⟩
    obtain ⟨column, hcolumn, rfl⟩ := Option.map_eq_some_iff.mp (mem_properties.mp hmem)
    have hmembers : c.fields.map sampleMember = (fieldColumns s t).map fun column =>
        (column.name, .sample column.name (.classify column.dataType)) := by
      simp [c, ofTable, sampleMember]
    have hname : column.name = key := by simpa using List.find?_some hcolumn
    rw [lastValue?, hmembers, ← List.map_reverse, lookup_map_name, hcolumn, ← hname]
    rfl

theorem sample_fits_schema_repeatedTables :
    let s := Scope.ofTables repeatedTables
    let t := repeatedTables.getLast (by decide)
    let c := ofTable s t
    c.fields.map Prod.fst = ["note", "id", "note"] ∧ "note" ∈ c.schema.required ∧
    ("note", ⟨.double, "note field (default: 1.5)"⟩) ∈ c.schema.properties ∧
    ∃ document members,
      readShell (String.intercalate "\n\n" [c.createBlock, c.sampleBlock] ++ "\n") =
        some [.createCollection "order" c.schema.toJson, .insertOne "order" document] ∧
      readDocument document = some members ∧ "note" ∈ members.map Prod.fst ∧
      lastValue? "note" members = some (.json (.number (.double 0x3FF0000000000000))) ∧
      ∃ bsonType value, recorded? c.schema.toJson "note" "bsonType" = some (.string bsonType) ∧
        (bsonType, value) ∈ DocumentValue.samples "note" ∧
        lastValue? "note" members = some value := by
  intro s t c
  have hrequired : "note" ∈ c.schema.required := by decide +kernel
  have hnote : ("note", ⟨.double, "note field (default: 1.5)"⟩) ∈ c.schema.properties := by
    decide +kernel
  obtain ⟨document, members, hread, hmembers, -, hkeys, hvalues⟩ := sample_fits_schema s t
  obtain ⟨hvalue, hrecorded⟩ := hvalues "note" _ hnote
  exact ⟨by decide +kernel, hrequired, hnote, document, members, hread, hmembers,
    hkeys "note" hrequired, hvalue, hrecorded⟩

end Collection
end SchemaScript
