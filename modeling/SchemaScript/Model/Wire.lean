import SchemaScript.Json.Printer
import SchemaScript.Model.Table
import SchemaScript.Wire.Choice
import SchemaScript.Wire.Record

/-!
# SchemaScript.Model.Wire

The form in which columns, tables and models travel: the names of their fields, which of them may
be left out, and their JSON values. Absent optional values are left out when a value is written.
-/

namespace SchemaScript

open Wire (Field Record)
open Json (Value)

namespace Cardinality

def choice : Wire.Choice Cardinality :=
  ⟨all.map fun kind => (kind.name, kind)⟩

def toJson (kind : Cardinality) : Value :=
  .string kind.name

end Cardinality

namespace Reference

def wire : Record Reference where
  name := "Reference"
  fields := [
    .mandatory "table" Wire.string fun table r => { r with table },
    .mandatory "column" Wire.string fun column r => { r with column },
    { Field.mandatory "type" Cardinality.choice.codec fun kind r => { r with kind } with
      aliases := ["kind"] }]
  start := ⟨"", "", .oneToOne⟩

def toJson (r : Reference) : Value :=
  .object [("table", .string r.table), ("column", .string r.column), ("type", r.kind.toJson)]

end Reference

/-- A member for an optional value, none if it is absent. -/
def optionalMember {α : Type} (name : String) (toJson : α → Value) (a : Option α) :
    List (String × Value) :=
  match a with
  | none => []
  | some a => [(name, toJson a)]

namespace Column

def wire : Record Column where
  name := "Column"
  fields := [
    .mandatory "name" Wire.string fun name c => { c with name },
    .optional "type" (Wire.optional Wire.string) fun dataType c => { c with dataType },
    .optional "isPrimaryKey" Wire.bool fun isPrimaryKey c => { c with isPrimaryKey },
    .optional "isForeignKey" Wire.bool fun isForeignKey c => { c with isForeignKey },
    .optional "isNullable" (Wire.optional Wire.bool) fun isNullable c => { c with isNullable },
    .optional "isUnique" Wire.bool fun isUnique c => { c with isUnique },
    .optional "defaultValue" (Wire.optional Wire.string) fun defaultValue c =>
      { c with defaultValue },
    .optional "reference" (Wire.optional Reference.wire.codec) fun reference c =>
      { c with reference }]
  start := untyped ""

def toJson (c : Column) : Value :=
  .object <|
    [("name", .string c.name)] ++
    optionalMember "type" .string c.dataType ++
    [("isPrimaryKey", .bool c.isPrimaryKey), ("isForeignKey", .bool c.isForeignKey)] ++
    optionalMember "isNullable" .bool c.isNullable ++
    [("isUnique", .bool c.isUnique)] ++
    optionalMember "defaultValue" .string c.defaultValue ++
    optionalMember "reference" Reference.toJson c.reference

end Column

namespace Table

def wire : Record Table where
  name := "Table"
  fields := [
    .mandatory "name" Wire.string fun name t => { t with name },
    .optional "description" (Wire.optional Wire.string) fun description t =>
      { t with description },
    .optional "columns" (Wire.list Column.wire.codec) fun columns t => { t with columns }]
  start := ⟨"", none, []⟩

def toJson (t : Table) : Value :=
  .object <|
    [("name", .string t.name)] ++
    optionalMember "description" .string t.description ++
    [("columns", .array (t.columns.map Column.toJson))]

end Table

namespace Model

def wire : Record Model where
  name := "DataModel"
  fields := [
    .optional "tables" (Wire.list Table.wire.codec) fun tables _ => ⟨tables⟩]
  start := ⟨[]⟩

def toJson (m : Model) : Value :=
  .object [("tables", .array (m.tables.map Table.toJson))]

end Model
end SchemaScript
