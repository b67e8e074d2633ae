import SchemaScript.Proofs.Json.Datum
import SchemaScript.Proofs.Script.Share

/-!
# SchemaScript.Proofs.Collection.Attempt

Shell scripts in which each piece of JSON is asked for where it is needed, and generation ends at
the first one that there is not. As the keys of all maps are names of columns, there is always a
script, and it is the one that is written without asking (`Scope.attemptShell_eq`).
-/

namespace SchemaScript

open Json (Datum)

/-- The JSON text of a datum in one line, if it has a value. -/
def compactText (d : Datum) : Except String String :=
  d.toValue.map (·.compact)

def prettyText (d : Datum) : Except String String :=
  d.toValue.map (·.pretty)

def Property.toDatum (p : Property) : Datum :=
  .record [("bsonType", .text p.storage.bsonName), ("description", .text p.description)]

/-- The schema of a collection whose properties are JSON already. -/
def CollectionSchema.toDatum (s : CollectionSchema) (properties : List (String × Json.Value)) :
    Datum :=
  .record <|
    [("bsonType", .text "object"), ("title", .text s.title),
      ("description", .text s.description)] ++
    (if s.required.isEmpty then [] else [("required", .sequence (s.required.map .text))]) ++
    [("properties", .map (properties.map fun e => (.text e.1, .value e.2)))]

namespace Collection

def attemptProperty (c : Column) : Except String (String × Json.Value) := do
  let property ← (Property.ofColumn c).toDatum.toValue
  pure (c.name, property)

def attemptProperties (s : Scope) (t : Table) : Except String (List (String × Json.Value)) := do
  let properties ← (fieldColumns s t).mapM attemptProperty
  pure (Entries.merge properties)

def attemptAccessor (name : String) : Except String String :=
  if isPlainName name then pure ("db." ++ name)
  else do
    let quoted ← compactText (.text name)
    pure ("db.getCollection(" ++ quoted ++ ")")

def attemptCreate (c : Collection) (properties : List (String × Json.Value)) :
    Except String String := do
  let schema ← prettyText (c.schema.toDatum properties)
  let quoted ← compactText (.text c.name)
  pure ("// Collection: " ++ commentText c.name ++ "\n" ++
    "// " ++ commentText c.schema.description ++ "\n" ++
    "db.createCollection(" ++ quoted ++ ", \x7b\n" ++
    "  validator: \x7b\n" ++
    "    $jsonSchema: " ++ indent schema 4 ++ "\n" ++
    "  \x7d\n" ++
    "\x7d);")

def attemptSampleValue (field : String) : StorageType → Except String String
  | .string => compactText (.text (field ++ "_value"))
  | storage => pure (sampleValue field storage)

def attemptSampleEntry (f : String × StorageType) : Except String String := do
  let name ← compactText (.text f.1)
  let value ← attemptSampleValue f.1 f.2
  pure ("  " ++ name ++ ": " ++ value)

def attemptSampleDocument (c : Collection) : Except String String :=
  match c.fields with
  | [] => pure "\x7b\x7d"
  | fields => do
    let entries ← fields.mapM attemptSampleEntry
    pure ("\x7b\n" ++ String.intercalate ",\n" entries ++ "\n\x7d")

def attemptSample (c : Collection) : Except String String := do
  let accessor ← attemptAccessor c.name
  let document ← c.attemptSampleDocument
  pure ("// Sample document for " ++ commentText c.name ++ "\n" ++
    accessor ++ ".insertOne(" ++ document ++ ");")

def attemptIndexText (c : Collection) (accessor : String) (r : CollectionReference) :
    Except String String := do
  let field ← compactText (.text r.field)
  pure ("// " ++ commentText c.name ++ "." ++ commentText r.field ++ " references " ++
    commentText r.collection ++ "." ++ commentText r.foreignField ++ " (" ++ r.kind.name ++
    ")\n" ++ accessor ++ ".createIndex(\x7b " ++ field ++ ": 1 \x7d);")

def attemptIndexes (c : Collection) : Except String String := do
  let accessor ← attemptAccessor c.name
  let lines ← c.references.mapM (c.attemptIndexText accessor)
  pure (String.intercalate "\n" lines)

def attemptBlocks (c : Collection) (properties : List (String × Json.Value)) :
    Except String (List String) := do
  let create ← c.attemptCreate properties
  let sample ← c.attemptSample
  if c.references.isEmpty then pure [create, sample]
  else do
    let indexes ← c.attemptIndexes
    pure [create, sample, indexes]

def attemptTable (s : Scope) (t : Table) : Except String (List String) := do
  let properties ← attemptProperties s t
  (ofTable s t).attemptBlocks properties

end Collection

namespace Scope

def attemptShell (s : Scope) : Except String String := do
  let blocks ← s.tables.mapM (Collection.attemptTable s)
  pure (shellOf blocks)

/-- The text for a dialect, or what is said about a datum that has no JSON text. -/
def attempt (s : Scope) (d : Dialect) : Except String String :=
  match d.profile? with
  | some p => pure (s.scriptText p)
  | none => s.attemptShell

end Scope

/-! ## Entries -/

namespace Entries

variable {α β : Type} (f : α → β)

theorem put_map (name : String) (a : α) (entries : List (String × α)) :
    put name (f a) (entries.map fun e => (e.1, f e.2)) =
      (put name a entries).map fun e => (e.1, f e.2) := by
  induction entries with
  | nil => rfl
  | cons e entries ih =>
    obtain ⟨other, b⟩ := e
    by_cases h : other = name
    · simp [put, h]
    · simp [put, h, ih]

theorem merge_map (entries : List (String × α)) :
    merge (entries.map fun e => (e.1, f e.2)) = (merge entries).map fun e => (e.1, f e.2) := by
  have hfold (acc : List (String × α)) :
      (entries.map fun e => (e.1, f e.2)).foldl (fun acc e => put e.1 e.2 acc)
          (acc.map fun e => (e.1, f e.2)) =
        (entries.foldl (fun acc e => put e.1 e.2 acc) acc).map fun e => (e.1, f e.2) := by
    induction entries generalizing acc with
    | nil => rfl
    | cons e entries ih =>
      have hput := put_map f e.1 e.2 acc
      simp only [List.map_cons, List.foldl_cons, hput, ih]
  exact hfold []

end Entries

/-! ## There is always a script -/

theorem except_ok_bind {α β : Type} (a : α) (f : α → Except String β) :
    (Except.ok a >>= f) = f a := rfl

theorem mapM_ok {α β : Type} {f : α → Except String β} {g : α → β} {as : List α}
    (h : ∀ a ∈ as, f a = .ok (g a)) : as.mapM f = .ok (as.map g) := by
  induction as with
  | nil => rfl
  | cons a as ih =>
    rw [List.mapM_cons, h a (by simp), ih fun b hb => h b (by simp [hb])]
    rfl

theorem compactText_text (s : String) : compactText (.text s) = .ok (Json.stringText s) := by
  simp only [compactText, Datum.toValue, Except.map, Json.Value.compact]

theorem Property.toValue_toDatum (p : Property) : p.toDatum.toValue = .ok p.toJson := rfl

theorem CollectionSchema.toValue_toDatum (s : CollectionSchema) :
    (s.toDatum (s.properties.map fun e => (e.1, e.2.toJson))).toValue = .ok s.toJson := by
  have hproperties := Datum.entryMembers_texts (s.properties.map fun e => (e.1, e.2.toJson))
  have hnames := Datum.itemValues_texts s.required
  unfold toDatum toJson
  by_cases hrequired : s.required.isEmpty
  · simp only [hrequired, if_true, List.append_nil, List.cons_append, List.nil_append,
      Datum.toValue, Datum.fieldMembers, hproperties, Except.map]
  · simp only [hrequired, if_false, Bool.false_eq_true, List.cons_append, List.nil_append,
      Datum.toValue, Datum.fieldMembers, hproperties, hnames, Except.map]

namespace Collection

theorem attemptProperty_eq (c : Column) :
    attemptProperty c = .ok (c.name, (Property.ofColumn c).toJson) := by
  rw [attemptProperty, Property.toValue_toDatum]
  rfl

theorem attemptProperties_eq (s : Scope) (t : Table) :
    attemptProperties s t =
      .ok ((ofTable s t).schema.properties.map fun e => (e.1, e.2.toJson)) := by
  have hmerge := Entries.merge_map Property.toJson
    ((fieldColumns s t).map fun c => (c.name, Property.ofColumn c))
  rw [List.map_map] at hmerge
  rw [attemptProperties, mapM_ok fun c _ => attemptProperty_eq c]
  exact congrArg Except.ok hmerge

theorem attemptAccessor_eq (name : String) : attemptAccessor name = .ok (accessor name) := by
  unfold attemptAccessor accessor
  rw [compactText_text]
  split <;> rfl

theorem attemptCreate_eq (c : Collection) :
    c.attemptCreate (c.schema.properties.map fun e => (e.1, e.2.toJson)) = .ok c.createBlock := by
  unfold attemptCreate prettyText
  rw [CollectionSchema.toValue_toDatum, compactText_text]
  rfl

theorem attemptSampleValue_eq (field : String) (storage : StorageType) :
    attemptSampleValue field storage = .ok (sampleValue field storage) := by
  cases storage with
  | string => exact compactText_text _
  | int => rfl
  | double => rfl
  | bool => rfl
  | date => rfl
  | object => rfl

theorem attemptSampleEntry_eq (f : String × StorageType) :
    attemptSampleEntry f = .ok ("  " ++ Json.stringText f.1 ++ ": " ++ sampleValue f.1 f.2) := by
  rw [attemptSampleEntry, compactText_text, attemptSampleValue_eq]
  rfl

theorem attemptSampleDocument_eq (c : Collection) :
    c.attemptSampleDocument = .ok c.sampleDocument := by
  unfold attemptSampleDocument sampleDocument
  cases c.fields with
  | nil => rfl
  | cons f fields =>
    simp only [mapM_ok fun f _ => attemptSampleEntry_eq f]
    rfl

theorem attemptSample_eq (c : Collection) : c.attemptSample = .ok c.sampleBlock := by
  unfold attemptSample
  rw [attemptAccessor_eq, attemptSampleDocument_eq]
  rfl

theorem attemptIndexText_eq (c : Collection) (r : CollectionReference) :
    c.attemptIndexText (accessor c.name) r = .ok (c.indexText r) := by
  unfold attemptIndexText
  rw [compactText_text]
  rfl

theorem attemptIndexes_eq (c : Collection) :
    c.attemptIndexes = .ok (String.intercalate "\n" (c.references.map c.indexText)) := by
  unfold attemptIndexes
  rw [attemptAccessor_eq, except_ok_bind, mapM_ok fun r _ => c.attemptIndexText_eq r]
  rfl

theorem attemptBlocks_eq (c : Collection) :
    c.attemptBlocks (c.schema.properties.map fun e => (e.1, e.2.toJson)) = .ok c.blocks := by
  unfold attemptBlocks blocks
  rw [attemptCreate_eq, except_ok_bind, attemptSample_eq, except_ok_bind, attemptIndexes_eq,
    except_ok_bind]
  by_cases h : c.references.isEmpty
  · rw [if_pos h, if_pos h]
    rfl
  · rw [if_neg h, if_neg h]
    rfl

theorem attemptTable_eq (s : Scope) (t : Table) :
    attemptTable s t = .ok (ofTable s t).blocks := by
  rw [attemptTable, attemptProperties_eq, except_ok_bind, attemptBlocks_eq]

end Collection

namespace Scope

theorem attemptShell_eq (s : Scope) : s.attemptShell = .ok s.shellText := by
  unfold attemptShell
  rw [mapM_ok fun t _ => Collection.attemptTable_eq s t, shellText_eq]
  rfl

theorem attempt_eq (s : Scope) (d : Dialect) :
    s.attempt d = .ok (match d.profile? with
      | some p => s.scriptText p
      | none => s.shellText) := by
  unfold attempt
  cases d.profile? with
  | some p => rfl
  | none => exact s.attemptShell_eq

end Scope
end SchemaScript
