import SchemaScript.Model.Column

/-!
# SchemaScript.Model.Table

Tables and the model, which is the ordered list of its tables. Names need not be distinct; a
look-up finds the first of its name.
-/

namespace SchemaScript

structure Table where
  name : String
  description : Option String
  columns : List Column
deriving DecidableEq, Repr

namespace Table

def withColumns (name : String) (columns : List Column) : Table :=
  ⟨name, none, columns⟩

def withDescription (description : String) (t : Table) : Table :=
  { t with description := some description }

/-- A table without columns is not exported. -/
def isExportable (t : Table) : Bool :=
  !t.columns.isEmpty

def primaryKeyColumns (t : Table) : List Column :=
  t.columns.filter (·.isPrimaryKey)

/-- Whether several columns make up the primary key. -/
def hasCompositeKey (t : Table) : Bool :=
  1 < t.primaryKeyColumns.length

def column? (t : Table) (name : String) : Option Column :=
  t.columns.find? (·.name == name)

/-- The description, for tables that have one that is not blank. -/
def givenDescription? (t : Table) : Option String :=
  t.description.filter fun d => !Text.allBlank d

end Table

structure Model where
  tables : List Table
deriving DecidableEq, Repr

def Model.table? (m : Model) (name : String) : Option Table :=
  m.tables.find? (·.name == name)

end SchemaScript
