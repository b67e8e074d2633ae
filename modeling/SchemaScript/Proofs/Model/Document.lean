import SchemaScript.Model.Document
import SchemaScript.Proofs.Json.ReadBack
import SchemaScript.Proofs.Json.ValueEnd
import SchemaScript.Proofs.Wire.Record

/-!
# SchemaScript.Proofs.Model.Document

The two forms of a model document do not get in each other's way. A model may be the array of its
only field, so `[[...]]` could be a model or a list with one table; but a table in the array form
begins with its name, and a list of tables does not begin with a text (`tables_eq_of_both`). So a
list of tables is read as the same model with and without the object around it, also as a text
(`document_unambiguous`).
-/

namespace SchemaScript

open Json (Value)

namespace Wire

variable {α β ρ : Type}

theorem string_ofValue {v : Value} {s : String} (h : string.ofValue v = .ok s) : v = .string s := by
  cases v with
  | string t =>
    cases h
    rfl
  | _ => cases h

theorem list_ofValue {c : Codec α} {v : Value} {as : List α} (h : (list c).ofValue v = .ok as) :
    ∃ items, v = .array items ∧ itemsOfValues c items = .ok as := by
  cases v with
  | array items => exact ⟨items, rfl, h⟩
  | _ => cases h

theorem itemsOfValues_cons {c : Codec α} {v : Value} {items : List Value} {as : List α}
    (h : itemsOfValues c (v :: items) = .ok as) : ∃ a, c.ofValue v = .ok a := by
  rw [itemsOfValues] at h
  split at h
  · cases h
  · exact ⟨_, ‹_›⟩

theorem ofValue_of_map {c : Codec α} {f : α → β} {v : Value} {b : β}
    (h : (c.map f).ofValue v = .ok b) : ∃ a, c.ofValue v = .ok a ∧ b = f a := by
  rw [Codec.map] at h
  simp only at h
  split at h
  · cases h
  · rename_i hv
    cases h
    exact ⟨_, hv, rfl⟩

/-- The first item of a record in the array form belongs to its first field. -/
theorem Record.ofItems_cons {r : Record ρ} {count index : Nat} {f : Field ρ}
    {fields : List (Field ρ)} {d : Draft ρ} {v : Value} {items : List Value} {a : ρ}
    (h : r.ofItems count index (f :: fields) d (v :: items) = .ok a) :
    ∃ change, f.codec.ofValue v = .ok change ∧
      r.ofItems count (index + 1) fields (put d f change) items = .ok a := by
  rw [ofItems] at h
  split at h
  · cases h
  · exact ⟨_, ‹_›, h⟩

end Wire

open Wire (Record)

/-- A table is an object, or an array that begins with its name. -/
theorem Table.form_of_ofValue {v : Value} {t : Table} (h : wire.codec.ofValue v = .ok t) :
    (∃ members, v = .object members) ∨ ∃ name rest, v = .array (.string name :: rest) := by
  cases v with
  | object members => exact .inl ⟨members, rfl⟩
  | array items =>
    cases items with
    | nil => cases h
    | cons first rest =>
      obtain ⟨change, hfirst, -⟩ := Record.ofItems_cons h
      obtain ⟨name, hname, -⟩ := Wire.ofValue_of_map hfirst
      exact .inr ⟨name, rest, by rw [Wire.string_ofValue hname]⟩
  | _ => cases h

namespace Model

/-- How lists of tables are read. -/
def tablesCodec : Wire.Codec (List Table) :=
  Wire.list Table.wire.codec

/-- A model in the array form is empty or has its tables as the only item. -/
theorem form_of_array {items : List Value} {m : Model} (h : wire.ofValue (.array items) = .ok m) :
    (items = [] ∧ m = ⟨[]⟩) ∨ ∃ v, items = [v] ∧ tablesCodec.ofValue v = .ok m.tables := by
  cases items with
  | nil =>
    cases h
    exact .inl ⟨rfl, rfl⟩
  | cons v items =>
    obtain ⟨change, hv, hrest⟩ := Record.ofItems_cons h
    obtain ⟨tables, htables, rfl⟩ := Wire.ofValue_of_map hv
    cases items with
    | nil =>
      cases hrest
      exact .inr ⟨v, rfl, htables⟩
    | cons next items => cases hrest

/-- What is read in both forms is read as the same tables. -/
theorem tables_eq_of_both {v : Value} {m : Model} {tables : List Table}
    (hmodel : wire.ofValue v = .ok m) (htables : tablesCodec.ofValue v = .ok tables) :
    m.tables = tables := by
  obtain ⟨items, rfl, hitems⟩ := Wire.list_ofValue htables
  rcases form_of_array hmodel with ⟨rfl, rfl⟩ | ⟨v, rfl, hv⟩
  · cases hitems
    rfl
  -- The only item would be a table and a list of tables.
  · obtain ⟨t, ht⟩ := Wire.itemsOfValues_cons hitems
    obtain ⟨inner, rfl, hinner⟩ := Wire.list_ofValue hv
    rcases Table.form_of_ofValue ht with ⟨members, hform⟩ | ⟨name, rest, hform⟩
    · cases hform
    · cases hform
      obtain ⟨t', ht'⟩ := Wire.itemsOfValues_cons hinner
      cases ht'

/-- The model that a value describes, the list of tables being tried first. -/
def ofValueListFirst? (v : Value) : Option Model :=
  match tablesCodec.ofValue v with
  | .ok tables => some ⟨tables⟩
  | .error _ =>
    match wire.ofValue v with
    | .ok m => some m
    | .error _ => none

theorem ofValue?_of_tables {v : Value} {tables : List Table}
    (h : tablesCodec.ofValue v = .ok tables) : ofValue? v = some ⟨tables⟩ := by
  have hlist : (Wire.list Table.wire.codec).ofValue v = .ok tables := h
  cases hmodel : wire.ofValue v with
  | error e => simp only [ofValue?, hmodel, hlist]
  | ok m =>
    simp only [ofValue?, hmodel]
    rw [← tables_eq_of_both hmodel h]

theorem ofValue?_of_object {v : Value} {tables : List Table}
    (h : tablesCodec.ofValue v = .ok tables) :
    ofValue? (.object [("tables", v)]) = some ⟨tables⟩ := by
  have hfield : wire.field? "tables" =
      some (.optional "tables" tablesCodec fun tables _ => ⟨tables⟩) := rfl
  have hread : (tablesCodec.map fun tables (_ : Model) => (⟨tables⟩ : Model)).ofValue v =
      .ok fun _ => ⟨tables⟩ := Wire.map_ofValue _ h
  have hmodel : wire.ofValue (.object [("tables", v)]) = .ok ⟨tables⟩ := by
    simp only [Record.ofValue, Record.ofMembers, hfield, Wire.Field.optional, hread]
    rfl
  simp only [ofValue?, hmodel]

theorem ofValueListFirst?_eq (v : Value) : ofValueListFirst? v = ofValue? v := by
  cases htables : tablesCodec.ofValue v with
  | ok tables => rw [ofValue?_of_tables htables, ofValueListFirst?, htables]
  | error e =>
    have hlist : (Wire.list Table.wire.codec).ofValue v = .error e := htables
    cases hmodel : wire.ofValue v with
    | ok m => simp only [ofValueListFirst?, ofValue?, htables, hmodel]
    | error f => simp only [ofValueListFirst?, ofValue?, htables, hlist, hmodel]

/-! ## Texts -/

/-- A text whose value ends it, with blanks behind it at most. -/
def IsText (depth : Nat) (text : List Char) (v : Value) : Prop :=
  ∃ rest, Json.readValue depth text = .ok (v, rest) ∧ Json.readEnd rest = .ok ()

/-- The items of an array that is all of a text. -/
def wholeItems? (depth : Nat) (text : List Char) : Option (List Value) :=
  match Json.readValue depth text with
  | .ok (.array items, rest) => if Json.readEnd rest = .ok () then some items else none
  | _ => none

theorem isText_of_wholeItems? {depth : Nat} {text : List Char} {items : List Value}
    (h : wholeItems? depth text = some items) : IsText depth text (.array items) := by
  unfold wholeItems? at h
  split at h
  · rename_i read rest hread
    obtain ⟨hend, hitems⟩ := Option.ite_none_right_eq_some.mp h
    cases hitems
    exact ⟨rest, hread, hend⟩
  · cases h

theorem ofJson_of_isText {depth : Nat} {text : String} {items : List Value} {m : Model}
    (hdepth : depth ≤ Json.largestDepth) (h : IsText depth text.toList (.array items))
    (hm : ofValue? (.array items) = some m) : ofJson text = .ok m := by
  obtain ⟨rest, hread, hend⟩ := h
  have hlarge := Json.readValue_append hdepth hread (.inr (by simp)) []
  rw [List.append_nil, List.append_nil] at hlarge
  simp only [ofJson, hlarge, hm, hend]

/-- The text of a list of tables with the object around it. -/
def wrapped (text : String) : String :=
  "\x7b\"tables\": " ++ text ++ "\x7d"

theorem toList_wrapped (text : String) :
    (wrapped text).toList = '\x7b' :: '"' :: (Json.escapeChars "tables".toList ++
      '"' :: ':' :: ' ' :: (text.toList ++ ['\x7d'])) := by
  rw [wrapped, String.toList_append, String.toList_append, List.append_assoc]
  rfl

theorem readMembers_wrapped {depth : Nat} {text : List Char} {items : List Value}
    (h : IsText depth text (.array items)) (steps : Nat) :
    Json.readMembers (Json.readMember (Json.readValue depth)) (steps + 2) true []
      ('"' :: (Json.escapeChars "tables".toList ++ '"' :: ':' :: ' ' :: (text ++ ['\x7d']))) =
        .ok ([("tables", .array items)], []) := by
  obtain ⟨rest, hread, hend⟩ := h
  have hvalue : Json.readValue depth (' ' :: (text ++ ['\x7d'])) =
      .ok (.array items, rest ++ ['\x7d']) := by
    rw [← Json.readValue_append (Nat.le_refl depth) hread (.inr (by simp)) ['\x7d']]
    exact Json.readValue_skipSpace depth (Json.isSpaces_blanks 1) _
  have hclosing : Json.skipSpace (rest ++ ['\x7d']) = ['\x7d'] := by
    have hrest := Json.readEnd_eq_ok.mp hend
    rw [Json.skipSpace] at hrest ⊢
    rw [List.dropWhile_append, hrest]
    rfl
  have hname (s : List Char) : Json.nextName true ('"' :: s) = .ok (some s, []) := rfl
  rw [Json.readMembers, hname]
  simp only [Json.readString_escapeChars]
  have hmember : Json.readMember (Json.readValue depth) [] "tables"
      (':' :: ' ' :: (text ++ ['\x7d'])) = .ok ([("tables", .array items)], rest ++ ['\x7d']) := by
    have hcolon : Json.readColon (':' :: ' ' :: (text ++ ['\x7d'])) =
        .ok ((), ' ' :: (text ++ ['\x7d'])) := rfl
    simp only [Json.readMember, hcolon, hvalue]
  simp only [hmember]
  rw [Json.readMembers, Json.nextName_of_closing false hclosing]

theorem ofJson_wrapped {depth : Nat} {text : String} {items : List Value} {m : Model}
    (hdepth : depth < Json.largestDepth) (h : IsText depth text.toList (.array items))
    (hm : ofValue? (.object [("tables", .array items)]) = some m) :
    ofJson (wrapped text) = .ok m := by
  have hread : Json.readValue (depth + 1) (wrapped text).toList =
      .ok (.object [("tables", .array items)], []) := by
    rw [toList_wrapped]
    exact Json.readValueBy_object (readMembers_wrapped h _)
  have hlarge := Json.readValue_append hdepth hread (.inr (by simp)) []
  rw [List.append_nil, List.append_nil] at hlarge
  simp only [ofJson, hlarge, hm]
  rfl

/-- The two forms of a document do not get in each other's way: what is read in both forms is read
as the same tables, so it makes no difference which form is tried first. A text of an array that is
read as a list of tables is read as the model with these tables, with and without the object around
it, as long as it is not nested too deep. -/
theorem document_unambiguous :
    (∀ v m tables, wire.ofValue v = .ok m → tablesCodec.ofValue v = .ok tables →
      m.tables = tables) ∧
    (∀ v, ofValueListFirst? v = ofValue? v) ∧
    ∀ depth text items tables, IsText depth text.toList (.array items) →
      tablesCodec.ofValue (.array items) = .ok tables →
      (depth ≤ Json.largestDepth → ofJson text = .ok ⟨tables⟩) ∧
      (depth < Json.largestDepth → ofJson (wrapped text) = .ok ⟨tables⟩) := by
  refine ⟨fun v m tables => tables_eq_of_both, ofValueListFirst?_eq, ?_⟩
  intro depth text items tables htext htables
  constructor
  · intro hdepth
    exact ofJson_of_isText hdepth htext (ofValue?_of_tables htables)
  · intro hdepth
    exact ofJson_wrapped hdepth htext (ofValue?_of_object htables)

/-- Tables and columns in both forms, and a member that no column has. -/
def mixedText : String :=
  "[[\"users\", null, [[\"id\", \"INT\", true], \x7b\"name\": \"age\", \"width\": 3\x7d]], " ++
    "\x7b\"name\": \"notes\"\x7d] "

def mixedTables : List Table :=
  [.withColumns "users" [{ Column.untyped "id" with dataType := "INT", isPrimaryKey := true },
    .untyped "age"], .withColumns "notes" []]

theorem document_unambiguous_mixedText :
    ofJson mixedText = .ok ⟨mixedTables⟩ ∧ ofJson (wrapped mixedText) = .ok ⟨mixedTables⟩ := by
  obtain ⟨items, hitems, htables⟩ : ∃ items ∈ wholeItems? 4 mixedText.toList,
      tablesCodec.ofValue (.array items) = .ok mixedTables := by decide +kernel
  obtain ⟨-, -, hforms⟩ := document_unambiguous
  obtain ⟨hbare, hwrapped⟩ := hforms 4 mixedText items mixedTables (isText_of_wholeItems? hitems)
    htables
  exact ⟨hbare (by decide), hwrapped (by decide)⟩

end Model
end SchemaScript
