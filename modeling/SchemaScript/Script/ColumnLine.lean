import SchemaScript.Dialect.Profile
import SchemaScript.Model.Table
import SchemaScript.Types.Native

/-!
# SchemaScript.Script.ColumnLine

The line that declares a column: segments in a fixed order, of which those without text are left
out. Columns of a composite key carry no mark of the key, which the table declares as a whole.
-/

namespace SchemaScript

inductive Segment where
  | identifier (name : String)
  | nativeType (text : String)
  | numbering (keyword : String)
  | primaryKey
  | unique
  | notNull
  | null
  | default (value : String)
deriving DecidableEq, Repr

/-- The default that stands for the time of insertion. -/
def currentTimestamp : String :=
  "CURRENT_TIMESTAMP"

/-- A default value as a literal, with its quotes written twice; the time of insertion is a call
of the function that the dialect has for it. -/
def Profile.defaultLiteral (p : Profile) (value : String) : String :=
  if value = currentTimestamp then p.nowFunction
  else String.ofList ('\'' :: Profile.double '\'' value.toList ++ ['\''])

def Segment.text (p : Profile) : Segment → String
  | .identifier name => p.quote name
  | .nativeType text => text
  | .numbering keyword => keyword
  | .primaryKey => "PRIMARY KEY"
  | .unique => "UNIQUE"
  | .notNull => "NOT NULL"
  | .null => "NULL"
  | .default value => "DEFAULT " ++ p.defaultLiteral value

namespace Profile

/-- The segments of a column; `soleKey` says that it is the only column of its table's key. -/
def segments (p : Profile) (soleKey : Bool) (c : Column) : List Segment :=
  [.identifier c.name] ++
  (c.dataType.map fun token => Segment.nativeType (p.dialect.convertType token)).toList ++
  (match p.numbering with
    | .inline keyword => if soleKey && c.isIntegerTyped then [.numbering keyword] else []
    | _ => []) ++
  (if p.inlineKeys && soleKey then [.primaryKey] else []) ++
  (if p.inlineKeys && c.isUnique && !c.isPrimaryKey then [.unique] else []) ++
  (if c.isRequired then [.notNull] else if p.explicitNull then [.null] else []) ++
  (c.givenDefault?.map Segment.default).toList

/-- The segments of a column of the given table. -/
def tableSegments (p : Profile) (t : Table) (c : Column) : List Segment :=
  p.segments (!t.hasCompositeKey && c.isPrimaryKey) c

/-- A line of segments, with a blank between those that have text. -/
def lineText (p : Profile) (line : List Segment) : String :=
  String.intercalate " " ((line.map (·.text p)).filter (· ≠ ""))

/-- The line of a column whose table has no other key column. -/
def columnLine (p : Profile) (c : Column) : String :=
  p.lineText (p.segments c.isPrimaryKey c)

/-- The lines of all columns of a table. -/
def columnLines (p : Profile) (t : Table) : List String :=
  t.columns.map fun c => p.lineText (p.tableSegments t c)

end Profile
end SchemaScript
