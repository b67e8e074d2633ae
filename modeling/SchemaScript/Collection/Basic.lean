import SchemaScript.Entries
import SchemaScript.Json.Printer
import SchemaScript.Script.Scope
import SchemaScript.Types.Storage

/-!
# SchemaScript.Collection.Basic

The collection that a table becomes in a document store: a schema for its documents, the storage
types of its fields, and the references to other collections.

A foreign key that points into the scope is a reference, and no field of the same name takes part in
the schema. All other columns are fields. A name that occurs several times is one property, in the
place of its first column and with the type of its last.
-/

namespace SchemaScript

/-- What the schema says about one property. -/
structure Property where
  storage : StorageType
  description : String
deriving DecidableEq, Repr

structure CollectionSchema where
  title : String
  description : String
  required : List String
  properties : List (String × Property)
deriving DecidableEq, Repr

structure CollectionReference where
  field : String
  collection : String
  foreignField : String
  kind : Cardinality
deriving DecidableEq, Repr

structure Collection where
  name : String
  schema : CollectionSchema
  fields : List (String × StorageType)
  references : List CollectionReference
deriving DecidableEq, Repr

namespace Property

def ofColumn (c : Column) : Property where
  storage := .classify c.dataType
  description :=
    match c.givenDefault? with
    | some value => c.name ++ " field (default: " ++ value ++ ")"
    | none => c.name ++ " field"

def toJson (p : Property) : Json.Value :=
  .object [("bsonType", .string p.storage.bsonName), ("description", .string p.description)]

end Property

namespace CollectionSchema

/-- The list of required fields is left out when it is empty. -/
def toJson (s : CollectionSchema) : Json.Value :=
  .object <|
    [("bsonType", .string "object"), ("title", .string s.title),
      ("description", .string s.description)] ++
    (if s.required.isEmpty then [] else [("required", .array (s.required.map .string))]) ++
    [("properties", .object (s.properties.map fun e => (e.1, e.2.toJson)))]

end CollectionSchema

namespace Collection

def ofLink (l : Link) : CollectionReference :=
  ⟨l.column.name, l.target.table, l.target.column, l.target.kind⟩

/-- The columns that are fields of the documents. -/
def fieldColumns (s : Scope) (t : Table) : List Column :=
  t.columns.filter fun c => !(s.foreignKeys t).any fun l => l.column.name == c.name

def ofTable (s : Scope) (t : Table) : Collection where
  name := t.name
  schema :=
    { title := t.name
      description := t.givenDescription?.getD (t.name ++ " collection")
      required := ((fieldColumns s t).filter (·.isRequired)).map (·.name)
      properties := Entries.merge ((fieldColumns s t).map fun c => (c.name, .ofColumn c)) }
  fields := (fieldColumns s t).map fun c => (c.name, .classify c.dataType)
  references := (s.foreignKeys t).map ofLink

end Collection
end SchemaScript
