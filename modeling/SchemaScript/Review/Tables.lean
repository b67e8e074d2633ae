import SchemaScript.Model.Table

/-!
# SchemaScript.Review.Tables

Findings about single tables and their names: names used by several tables, columns declared more
than once, and columns whose foreign key flag does not go with their reference.
-/

namespace SchemaScript
namespace Review

/-- A table whose name an earlier table has. -/
structure NamingConflict where
  table : String
  firstIndex : Nat
  duplicateIndex : Nat
deriving DecidableEq, Repr

structure DuplicateColumn where
  table : String
  column : String
deriving DecidableEq, Repr

inductive KeyMismatchKind where
  | flagWithoutReference
  | referenceWithoutFlag
deriving DecidableEq, Repr

structure KeyMismatch where
  table : String
  column : String
  kind : KeyMismatchKind
deriving DecidableEq, Repr

/-- Conflicts of the names from `index` on, given the names before it with their first places. -/
def conflictsFrom (index : Nat) (seen : List (String × Nat)) : List String → List NamingConflict
  | [] => []
  | name :: rest =>
    match seen.lookup name with
    | some first => ⟨name, first, index⟩ :: conflictsFrom (index + 1) seen rest
    | none => conflictsFrom (index + 1) ((name, index) :: seen) rest

def namingConflicts (tables : List Table) : List NamingConflict :=
  conflictsFrom 0 [] (tables.map (·.name))

/-- The names that occur for the second time, given the names that came before. -/
def secondsFrom (before : List String) : List String → List String
  | [] => []
  | name :: rest =>
    if before.count name = 1 then name :: secondsFrom (name :: before) rest
    else secondsFrom (name :: before) rest

def duplicateColumns (t : Table) : List DuplicateColumn :=
  (secondsFrom [] (t.columns.map (·.name))).map fun name => ⟨t.name, name⟩

def keyMismatch? (c : Column) : Option KeyMismatchKind :=
  match c.isForeignKey, c.reference with
  | true, none => some .flagWithoutReference
  | false, some _ => some .referenceWithoutFlag
  | _, _ => none

def keyMismatches (t : Table) : List KeyMismatch :=
  t.columns.filterMap fun c => (keyMismatch? c).map fun kind => ⟨t.name, c.name, kind⟩

end Review
end SchemaScript
