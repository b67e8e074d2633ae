import SchemaScript.Text.Blank
import SchemaScript.Text.Case

/-!
# SchemaScript.Model.Column

Columns of a table and the references that foreign key columns carry.

A column that is built step by step has its type token brought to one form: the keyword in
capitals, the parameters as they are. A column that is read from a document keeps its token.
-/

namespace SchemaScript

/-- How many rows of the two tables a reference may join, as drawn in the diagram. -/
inductive Cardinality where
  | oneToOne
  | oneToMany
  | manyToOne
  | manyToMany
deriving DecidableEq, Repr

namespace Cardinality

def all : List Cardinality :=
  [.oneToOne, .oneToMany, .manyToOne, .manyToMany]

def name : Cardinality → String
  | .oneToOne => "ONE-TO-ONE"
  | .oneToMany => "ONE-TO-MANY"
  | .manyToOne => "MANY-TO-ONE"
  | .manyToMany => "MANY-TO-MANY"

end Cardinality

/-- The column of a table that a foreign key points at. -/
structure Reference where
  table : String
  column : String
  kind : Cardinality
deriving DecidableEq, Repr

structure Column where
  name : String
  /-- The abstract type token, such as `VARCHAR(255)`. -/
  dataType : Option String
  isPrimaryKey : Bool
  isForeignKey : Bool
  /-- `none` where the model says nothing. -/
  isNullable : Option Bool
  isUnique : Bool
  defaultValue : Option String
  reference : Option Reference
deriving DecidableEq, Repr

/-- The keyword of a type token in capitals and without blanks around it, the text from the first
bracket on as it is. -/
def normalizeToken (token : String) : String :=
  let trimmed := Text.trimChars token.toList
  let keyword := trimmed.takeWhile (· ≠ '(')
  match trimmed.dropWhile (· ≠ '(') with
  | [] => String.ofList (Text.upperChars trimmed)
  | parameters => String.ofList (Text.upperChars (Text.trimEndChars keyword) ++ parameters)

namespace Column

def untyped (name : String) : Column :=
  ⟨name, none, false, false, none, false, none, none⟩

def typed (name token : String) : Column :=
  { untyped name with dataType := some (normalizeToken token) }

def primaryKey (c : Column) : Column :=
  { c with isPrimaryKey := true }

def unique (c : Column) : Column :=
  { c with isUnique := true }

def nullable (b : Bool) (c : Column) : Column :=
  { c with isNullable := some b }

def withDefault (value : String) (c : Column) : Column :=
  { c with defaultValue := some value }

/-- The column as a foreign key that points at a column of another table. -/
def references (table column : String) (kind : Cardinality) (c : Column) : Column :=
  { c with isForeignKey := true, reference := some ⟨table, column, kind⟩ }

/-- Whether the column must have a value: it is part of the key or said not to be nullable. -/
def isRequired (c : Column) : Bool :=
  c.isNullable == some false || c.isPrimaryKey

/-- The target of the foreign key, for columns that are flagged as one. -/
def foreignKey? (c : Column) : Option Reference :=
  if c.isForeignKey then c.reference else none

/-- Whether the type is one of the plain integers that a database can number by itself. -/
def isIntegerTyped (c : Column) : Bool :=
  match c.dataType with
  | none => false
  | some token =>
    let keyword := Text.trim token
    Text.equalAsciiCase keyword "INT" || Text.equalAsciiCase keyword "INTEGER"

/-- The default value, for columns that have one with at least one character. -/
def givenDefault? (c : Column) : Option String :=
  c.defaultValue.filter (· ≠ "")

end Column
end SchemaScript
