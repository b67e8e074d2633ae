import SchemaScript.Model.Document
import SchemaScript.Proofs.Json.ReadBack
import SchemaScript.Proofs.Wire.Record

/-!
# SchemaScript.Proofs.Model.RoundTrip

A model that is written as JSON is read back as it was, whatever its texts are and whichever of its
optional values are present (`ofJson_toJson`); so is the list of its tables alone.

For each record, `toJson_eq_written` says that it is written as the members of its fields, and
`reads_wire` that reading them gives the record. `fits_toJson` bounds how deep the value is nested.
-/

namespace SchemaScript

open Json (Value)
open Wire (Field Record FieldPart)

theorem Cardinality.reads_choice : choice.codec.Reads toJson := by
  intro kind
  cases kind <;> rfl

namespace Reference

/-- What is written for the fields of a reference. -/
def parts (r : Reference) : List (FieldPart Reference) :=
  [.present .string (fun table r => { r with table }) r.table,
    .present .string (fun column r => { r with column }) r.column,
    .present Cardinality.toJson (fun kind r => { r with kind }) r.kind]

theorem toJson_eq_written (r : Reference) :
    r.toJson = .object (Record.written wire.fields r.parts) := rfl

theorem reads_parts (r : Reference) : List.Forall₂ Field.Reads wire.fields r.parts :=
  .cons (Field.reads_present rfl Wire.reads_string _) <|
  .cons (Field.reads_present rfl Wire.reads_string _) <|
  .cons (Field.reads_present rfl Cardinality.reads_choice _) .nil

theorem reads_wire : wire.codec.Reads toJson := by
  intro r
  have hrequired : ∀ f ∈ wire.fields, f.required = true →
      f.name ∈ (Record.written wire.fields r.parts).map (·.1) := by
    intro f hf _
    exact List.mem_map_of_mem (f := Field.name) hf
  exact Record.ofValue_written (by decide) r.reads_parts hrequired

theorem fits_toJson (r : Reference) (depth : Nat) : r.toJson.Fits (depth + 1) := by
  intro m hm
  simp only [List.mem_cons, List.not_mem_nil, or_false] at hm
  rcases hm with rfl | rfl | rfl <;> exact Json.fits_string depth _

end Reference

theorem fits_optionalMember {α : Type} {toJson : α → Value} {depth : Nat}
    (h : ∀ a, (toJson a).Fits depth) {name : String} {a : Option α} :
    ∀ m ∈ optionalMember name toJson a, m.2.Fits depth := by
  intro m hm
  cases a with
  | none => cases hm
  | some a =>
    rw [List.mem_singleton.mp hm]
    exact h a

namespace Column

/-- What is written for the fields of a column. -/
def parts (c : Column) : List (FieldPart Column) :=
  [.present .string (fun name c => { c with name }) c.name,
    .ofOption .string (fun dataType c => { c with dataType }) c.dataType,
    .present .bool (fun isPrimaryKey c => { c with isPrimaryKey }) c.isPrimaryKey,
    .present .bool (fun isForeignKey c => { c with isForeignKey }) c.isForeignKey,
    .ofOption .bool (fun isNullable c => { c with isNullable }) c.isNullable,
    .present .bool (fun isUnique c => { c with isUnique }) c.isUnique,
    .ofOption .string (fun defaultValue c => { c with defaultValue }) c.defaultValue,
    .ofOption Reference.toJson (fun reference c => { c with reference }) c.reference]

theorem toJson_eq_written (c : Column) :
    c.toJson = .object (Record.written wire.fields c.parts) := by
  obtain ⟨name, dataType, isPrimaryKey, isForeignKey, isNullable, isUnique, defaultValue,
    reference⟩ := c
  cases dataType <;> cases isNullable <;> cases defaultValue <;> cases reference <;> rfl

theorem reads_parts (c : Column) : List.Forall₂ Field.Reads wire.fields c.parts :=
  .cons (Field.reads_present rfl Wire.reads_string _) <|
  .cons (Field.reads_ofOption rfl Wire.reads_string nofun _) <|
  .cons (Field.reads_present rfl Wire.reads_bool _) <|
  .cons (Field.reads_present rfl Wire.reads_bool _) <|
  .cons (Field.reads_ofOption rfl Wire.reads_bool nofun _) <|
  .cons (Field.reads_present rfl Wire.reads_bool _) <|
  .cons (Field.reads_ofOption rfl Wire.reads_string nofun _) <|
  .cons (Field.reads_ofOption rfl Reference.reads_wire nofun _) .nil

theorem foldl_change_parts (c : Column) :
    c.parts.foldl (fun record part => part.change record) wire.start = c := by
  obtain ⟨name, dataType, isPrimaryKey, isForeignKey, isNullable, isUnique, defaultValue,
    reference⟩ := c
  cases dataType <;> cases isNullable <;> cases defaultValue <;> cases reference <;> rfl

theorem reads_wire : wire.codec.Reads toJson := by
  intro c
  have hrequired : ∀ f ∈ wire.fields, f.required = true →
      f.name ∈ (Record.written wire.fields c.parts).map (·.1) := by
    intro f hf hrequired
    simp only [wire, List.mem_cons, List.not_mem_nil, or_false] at hf
    rcases hf with rfl | rfl | rfl | rfl | rfl | rfl | rfl | rfl <;> cases hrequired
    exact List.mem_cons_self
  have hread := Record.ofValue_written (by decide) c.reads_parts hrequired
  rw [foldl_change_parts] at hread
  rw [toJson_eq_written]
  exact hread

theorem fits_toJson (c : Column) (depth : Nat) : c.toJson.Fits (depth + 2) := by
  have hstring (s : String) := Json.fits_string (depth + 1) s
  have hbool (b : Bool) := Json.fits_bool (depth + 1) b
  intro m hm
  simp only [List.mem_append, List.mem_cons, List.not_mem_nil, or_false] at hm
  rcases hm with (((((rfl | hm) | rfl | rfl) | hm) | rfl) | hm) | hm
  · exact hstring c.name
  · exact fits_optionalMember hstring m hm
  · exact hbool c.isPrimaryKey
  · exact hbool c.isForeignKey
  · exact fits_optionalMember hbool m hm
  · exact hbool c.isUnique
  · exact fits_optionalMember hstring m hm
  · exact fits_optionalMember (fun r => r.fits_toJson depth) m hm

end Column

namespace Table

/-- What is written for the fields of a table. -/
def parts (t : Table) : List (FieldPart Table) :=
  [.present .string (fun name t => { t with name }) t.name,
    .ofOption .string (fun description t => { t with description }) t.description,
    .present (fun columns => .array (columns.map Column.toJson))
      (fun columns t => { t with columns }) t.columns]

theorem toJson_eq_written (t : Table) :
    t.toJson = .object (Record.written wire.fields t.parts) := by
  obtain ⟨name, description, columns⟩ := t
  cases description <;> rfl

theorem reads_parts (t : Table) : List.Forall₂ Field.Reads wire.fields t.parts :=
  .cons (Field.reads_present rfl Wire.reads_string _) <|
  .cons (Field.reads_ofOption rfl Wire.reads_string nofun _) <|
  .cons (Field.reads_present rfl Column.reads_wire.list _) .nil

theorem foldl_change_parts (t : Table) :
    t.parts.foldl (fun record part => part.change record) wire.start = t := by
  obtain ⟨name, description, columns⟩ := t
  cases description <;> rfl

theorem reads_wire : wire.codec.Reads toJson := by
  intro t
  have hrequired : ∀ f ∈ wire.fields, f.required = true →
      f.name ∈ (Record.written wire.fields t.parts).map (·.1) := by
    intro f hf hrequired
    simp only [wire, List.mem_cons, List.not_mem_nil, or_false] at hf
    rcases hf with rfl | rfl | rfl <;> cases hrequired
    exact List.mem_cons_self
  have hread := Record.ofValue_written (by decide) t.reads_parts hrequired
  rw [foldl_change_parts] at hread
  rw [toJson_eq_written]
  exact hread

theorem fits_toJson (t : Table) (depth : Nat) : t.toJson.Fits (depth + 4) := by
  have hstring (s : String) := Json.fits_string (depth + 3) s
  intro m hm
  simp only [List.mem_append, List.mem_cons, List.not_mem_nil, or_false] at hm
  rcases hm with (rfl | hm) | rfl
  · exact hstring t.name
  · exact fits_optionalMember hstring m hm
  · intro v hv
    obtain ⟨c, -, rfl⟩ := List.mem_map.mp hv
    exact c.fits_toJson depth

end Table

namespace Model

/-- The tables of a model without the object around them. -/
def tablesJson (tables : List Table) : Value :=
  .array (tables.map Table.toJson)

theorem fits_tablesJson (tables : List Table) (depth : Nat) :
    (tablesJson tables).Fits (depth + 5) := by
  intro v hv
  obtain ⟨t, -, rfl⟩ := List.mem_map.mp hv
  exact t.fits_toJson depth

theorem fits_toJson (m : Model) (depth : Nat) : m.toJson.Fits (depth + 6) := by
  intro member hmember
  rw [List.mem_singleton.mp hmember]
  exact fits_tablesJson m.tables depth

theorem ofValue?_toJson (m : Model) : ofValue? m.toJson = some m := by
  have hparts : List.Forall₂ Field.Reads wire.fields
      [.present tablesJson (fun tables _ => ⟨tables⟩) m.tables] :=
    .cons (Field.reads_present rfl Table.reads_wire.list _) .nil
  have hread : wire.ofValue m.toJson = .ok m :=
    Record.ofValue_written (by decide) hparts (by simp [wire, Field.optional])
  simp only [ofValue?, hread]

/-- A list of tables is not taken for the array form of a model, or else has no tables. -/
theorem ofValue?_tablesJson (tables : List Table) :
    ofValue? (tablesJson tables) = some ⟨tables⟩ := by
  cases tables with
  | nil => rfl
  | cons t tables =>
    have hlist : (Wire.list Table.wire.codec).ofValue (tablesJson (t :: tables)) =
        .ok (t :: tables) := Table.reads_wire.list (t :: tables)
    have hrecord : wire.ofValue (tablesJson (t :: tables)) =
        .error (.invalidType .object .sequence) := rfl
    simp only [ofValue?, hrecord, hlist]

theorem ofJson_of_spelled {m : Model} {v : Value} {text : String}
    (h : Json.Spelled Json.largestDepth v text.toList) (hv : ofValue? v = some m) :
    ofJson text = .ok m := by
  have hread := Json.readValue_of_spelled h []
  rw [List.append_nil] at hread
  simp only [ofJson, hread, hv]
  rfl

/-- What is written of a model is read as that model, and so is the list of its tables, with and
without line breaks. -/
theorem ofJson_toJson (m : Model) :
    ofJson m.toJson.pretty = .ok m ∧
      ofJson (tablesJson m.tables).pretty = .ok m ∧
      ofJson (tablesJson m.tables).compact = .ok m := by
  have hmodel : m.toJson.Fits Json.largestDepth := m.fits_toJson 121
  have htables : (tablesJson m.tables).Fits Json.largestDepth := fits_tablesJson m.tables 122
  refine ⟨?_, ?_, ?_⟩
  · exact ofJson_of_spelled (Json.spelled_prettyAt _ 0 _ hmodel) m.ofValue?_toJson
  · exact ofJson_of_spelled (Json.spelled_prettyAt _ 0 _ htables) (ofValue?_tablesJson m.tables)
  · exact ofJson_of_spelled (Json.spelled_compact _ _ htables) (ofValue?_tablesJson m.tables)

end Model
end SchemaScript
