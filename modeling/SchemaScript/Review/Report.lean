import SchemaScript.Review.References
import SchemaScript.Review.Tables

/-!
# SchemaScript.Review.Report

The report on a model: all findings, whether there are any, and how they are told. Tables that refer
to themselves are legal and not told of.
-/

namespace SchemaScript
namespace Review

structure TableFindings where
  namingConflicts : List NamingConflict
  duplicateColumns : List DuplicateColumn
  keyMismatches : List KeyMismatch
deriving DecidableEq, Repr

structure Report where
  tables : TableFindings
  unresolved : List UnresolvedReference
  circles : List (List String)
  selfReferences : List SelfReference
deriving DecidableEq, Repr

def reportOn (tables : List Table) : Report where
  tables :=
    { namingConflicts := namingConflicts tables
      duplicateColumns := tables.flatMap duplicateColumns
      keyMismatches := tables.flatMap keyMismatches }
  unresolved := unresolvedReferences tables
  circles := circles tables
  selfReferences := selfReferences tables

def TableFindings.isClean (f : TableFindings) : Bool :=
  f.namingConflicts.isEmpty && f.duplicateColumns.isEmpty && f.keyMismatches.isEmpty

def NamingConflict.text (c : NamingConflict) : String :=
  "Table name '" ++ c.table ++ "' is used more than once (positions " ++
    toString c.firstIndex ++ " and " ++ toString c.duplicateIndex ++ ")"

def DuplicateColumn.text (d : DuplicateColumn) : String :=
  "Column '" ++ d.column ++ "' is declared more than once in table '" ++ d.table ++ "'"

def KeyMismatchKind.text : KeyMismatchKind → String
  | .flagWithoutReference => "is flagged as foreign key but has no reference"
  | .referenceWithoutFlag => "has a reference but is not flagged as foreign key"

def KeyMismatch.text (m : KeyMismatch) : String :=
  "Column '" ++ m.table ++ "." ++ m.column ++ "' " ++ m.kind.text

def UnresolvedKind.text : UnresolvedKind → String
  | .missingTable => "target table is not part of the export"
  | .missingColumn => "target column does not exist"

def UnresolvedReference.text (u : UnresolvedReference) : String :=
  "Reference " ++ u.table ++ "." ++ u.column ++ " -> " ++ u.target.table ++ "." ++
    u.target.column ++ ": " ++ u.kind.text

def circleText (names : List String) : String :=
  "Circular foreign key dependency between tables: " ++ String.intercalate ", " names

namespace Report

def isClean (r : Report) : Bool :=
  r.tables.isClean && r.unresolved.isEmpty && r.circles.isEmpty

/-- The findings, one text each. -/
def warnings (r : Report) : List String :=
  r.tables.namingConflicts.map (·.text) ++
  r.tables.duplicateColumns.map (·.text) ++
  r.tables.keyMismatches.map (·.text) ++
  r.unresolved.map (·.text) ++
  r.circles.map circleText

end Report
end Review
end SchemaScript
