import SchemaScript.Dialect.Profile
import SchemaScript.Script.Scope

/-!
# SchemaScript.Script.Constraint

Keys and references that are declared apart from the columns: in the body of their table, or by
statements of their own that have a name made from the table and the columns.
-/

namespace SchemaScript

inductive Constraint where
  | primaryKey (table : String) (columns : List String)
  | unique (table column : String)
  | foreignKey (table column : String) (target : Reference)
deriving DecidableEq, Repr

inductive ConstraintKind where
  | primaryKey
  | unique
  | foreignKey
deriving DecidableEq, Repr

def ConstraintKind.code : ConstraintKind → String
  | .primaryKey => "PK"
  | .unique => "UK"
  | .foreignKey => "FK"

/-- The name of a constraint of a table on the given columns. -/
def constraintName (kind : ConstraintKind) (table columns : String) : String :=
  kind.code ++ "_" ++ table ++ "_" ++ columns

namespace Constraint

def table : Constraint → String
  | .primaryKey table _ => table
  | .unique table _ => table
  | .foreignKey table _ _ => table

def name : Constraint → String
  | .primaryKey table columns =>
    constraintName .primaryKey table (String.intercalate "_" columns)
  | .unique table column => constraintName .unique table column
  | .foreignKey table column _ => constraintName .foreignKey table column

/-- The clause that states the constraint inside a table. -/
def clause (p : Profile) : Constraint → String
  | .primaryKey _ columns => "PRIMARY KEY (" ++ String.intercalate ", " (columns.map p.quote) ++ ")"
  | .unique _ column => "UNIQUE (" ++ p.quote column ++ ")"
  | .foreignKey _ column target =>
    "FOREIGN KEY (" ++ p.quote column ++ ") REFERENCES " ++ p.quote target.table ++ "(" ++
      p.quote target.column ++ ")"

theorem clause_primaryKey (p : Profile) (table : String) (columns : List String) :
    (primaryKey table columns).clause p =
      "PRIMARY KEY (" ++ String.intercalate ", " (columns.map p.quote) ++ ")" := rfl

theorem clause_unique (p : Profile) (table column : String) :
    (unique table column).clause p = "UNIQUE (" ++ p.quote column ++ ")" := rfl

theorem clause_foreignKey (p : Profile) (table column : String) (target : Reference) :
    (foreignKey table column target).clause p =
      "FOREIGN KEY (" ++ p.quote column ++ ") REFERENCES " ++ p.quote target.table ++ "(" ++
        p.quote target.column ++ ")" := rfl

/-- The statement that adds the constraint to its table. -/
def statement (p : Profile) (c : Constraint) : String :=
  "ALTER TABLE " ++ p.quote c.table ++ " ADD CONSTRAINT " ++ p.quote c.name ++ " " ++
    c.clause p ++ ";"

end Constraint

namespace Table

/-- The key of a table with all its columns, if it has any. -/
def primaryKeyConstraint? (t : Table) : Option Constraint :=
  match t.primaryKeyColumns with
  | [] => none
  | columns => some (.primaryKey t.name (columns.map (·.name)))

/-- One constraint for each unique column that is not part of the key. -/
def uniqueConstraints (t : Table) : List Constraint :=
  (t.columns.filter fun c => c.isUnique && !c.isPrimaryKey).map fun c => .unique t.name c.name

/-- One constraint for each foreign key that points into the scope. -/
def foreignKeyConstraints (t : Table) (s : Scope) : List Constraint :=
  (s.foreignKeys t).map fun l => .foreignKey t.name l.column.name l.target

end Table

namespace Profile

/-- The key declared by a statement of its own. -/
def deferredKeys (p : Profile) (t : Table) : List Constraint :=
  if p.keyPlacement = .alterTable then t.primaryKeyConstraint?.toList else []

/-- The key declared in the body of the table: a composite one, where single keys stand on the
line of their column. -/
def bodyKey? (p : Profile) (t : Table) : Option Constraint :=
  if p.inlineKeys && t.hasCompositeKey then t.primaryKeyConstraint? else none

def deferredUniques (p : Profile) (t : Table) : List Constraint :=
  if p.keyPlacement = .alterTable then t.uniqueConstraints else []

def deferredForeignKeys (p : Profile) (s : Scope) (t : Table) : List Constraint :=
  if p.foreignKeyPlacement = .alterTable then t.foreignKeyConstraints s else []

def bodyForeignKeys (p : Profile) (s : Scope) (t : Table) : List Constraint :=
  if p.foreignKeyPlacement = .tableBody then t.foreignKeyConstraints s else []

/-- All constraints of a table that have statements of their own. -/
def deferredConstraints (p : Profile) (s : Scope) (t : Table) : List Constraint :=
  p.deferredKeys t ++ p.deferredUniques t ++ p.deferredForeignKeys s t

end Profile
end SchemaScript
