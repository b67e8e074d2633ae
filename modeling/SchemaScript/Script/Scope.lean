import SchemaScript.Model.Table

/-!
# SchemaScript.Script.Scope

The part of a model that is exported: its tables with at least one column, and the references that
point at one of them. References to anything else are dropped.
-/

namespace SchemaScript

/-- A foreign key column with its target. -/
structure Link where
  column : Column
  target : Reference
deriving DecidableEq, Repr

/-- The foreign keys of a table in column order. -/
def Table.links (t : Table) : List Link :=
  t.columns.filterMap fun c => c.foreignKey?.map fun r => ⟨c, r⟩

structure Scope where
  tables : List Table
deriving DecidableEq, Repr

namespace Scope

def ofTables (tables : List Table) : Scope :=
  ⟨tables.filter (·.isExportable)⟩

def isEmpty (s : Scope) : Bool :=
  s.tables.isEmpty

def hasTable (s : Scope) (name : String) : Bool :=
  s.tables.any (·.name == name)

def resolves (s : Scope) (r : Reference) : Bool :=
  s.hasTable r.table

/-- The foreign keys of a table that point into the scope, in column order. -/
def foreignKeys (s : Scope) (t : Table) : List Link :=
  t.links.filter fun l => s.resolves l.target

/-- The foreign keys of a table that point outside the scope, in column order. -/
def dropped (s : Scope) (t : Table) : List Link :=
  t.links.filter fun l => !s.resolves l.target

/-- All foreign keys that point outside the scope, with their tables. -/
def unresolved (s : Scope) : List (Table × Link) :=
  s.tables.flatMap fun t => (s.dropped t).map fun l => (t, l)

end Scope
end SchemaScript
