import SchemaScript.Script.ColumnLine
import SchemaScript.Script.Constraint
import SchemaScript.Text.Lines

/-!
# SchemaScript.Script.Statement

Scripts for relational databases: statements in blocks, and their text.

The blocks are the header, one for each table, the sequences and the triggers that number rows, and
the constraints. A blank line stands between two blocks, and the script ends with a line feed.
-/

namespace SchemaScript

inductive Statement where
  | header (text : String)
  | createTable (table : Table)
  | createSequence (table : Table) (column : Column)
  | createTrigger (table : Table) (column : Column)
  | addConstraint (constraint : Constraint)
deriving DecidableEq, Repr

namespace Statement

def sequenceName (t : Table) (c : Column) : String :=
  t.name ++ "_" ++ c.name ++ "_SEQ"

def triggerName (t : Table) (c : Column) : String :=
  t.name ++ "_" ++ c.name ++ "_TRG"

/-- A description as comment lines, each with its line feed. -/
def commentText (description : String) : String :=
  String.join ((Text.lines description).map fun line => "-- " ++ Text.trimEnd line ++ "\n")

/-- The lines between the brackets of a table. -/
def tableBody (p : Profile) (s : Scope) (t : Table) : List String :=
  p.columnLines t ++ (p.bodyKey? t).toList.map (·.clause p) ++
    (p.bodyForeignKeys s t).map (·.clause p)

/-- What stands in front of a table: its description, if it has one. -/
def descriptionText (t : Table) : String :=
  match t.givenDescription? with
  | some description => commentText description
  | none => ""

/-- The statement that makes a table. -/
def tableText (p : Profile) (s : Scope) (t : Table) : String :=
  "CREATE TABLE " ++ p.quote t.name ++ " (\n" ++
    String.intercalate ",\n" ((tableBody p s t).map fun line => "  " ++ line) ++
    "\n)" ++ p.tableSuffix ++ ";"

def createTableText (p : Profile) (s : Scope) (t : Table) : String :=
  descriptionText t ++ tableText p s t

def createSequenceText (p : Profile) (t : Table) (c : Column) : String :=
  "CREATE SEQUENCE " ++ p.quote (sequenceName t c) ++ " START WITH 1 INCREMENT BY 1;"

/-- A trigger that draws from the sequence of the column when a row comes without a value. -/
def createTriggerText (p : Profile) (t : Table) (c : Column) : String :=
  "CREATE OR REPLACE TRIGGER " ++ p.quote (triggerName t c) ++ "\n" ++
  "BEFORE INSERT ON " ++ p.quote t.name ++ "\n" ++
  "FOR EACH ROW\n" ++
  "BEGIN\n" ++
  "  IF :NEW." ++ p.quote c.name ++ " IS NULL THEN\n" ++
  "    SELECT " ++ p.quote (sequenceName t c) ++ ".NEXTVAL INTO :NEW." ++ p.quote c.name ++
    " FROM DUAL;\n" ++
  "  END IF;\n" ++
  "END;\n" ++
  "/"

def text (p : Profile) (s : Scope) : Statement → String
  | .header text => text
  | .createTable t => createTableText p s t
  | .createSequence t c => createSequenceText p t c
  | .createTrigger t c => createTriggerText p t c
  | .addConstraint c => c.statement p

end Statement

/-- Statements that belong together, under a comment line if they have one. -/
structure Block where
  banner : Option String
  separator : String
  statements : List Statement
deriving DecidableEq, Repr

namespace Block

def text (p : Profile) (s : Scope) (b : Block) : String :=
  (match b.banner with
    | some banner => "-- " ++ banner ++ "\n"
    | none => "") ++
  String.intercalate b.separator (b.statements.map (·.text p s))

end Block

namespace Scope

/-- The integer columns that are the only key column of their table. -/
def numberedColumns (s : Scope) : List (Table × Column) :=
  (s.tables.filter fun t => !t.hasCompositeKey).flatMap fun t =>
    (t.primaryKeyColumns.filter (·.isIntegerTyped)).map fun c => (t, c)

/-- The columns that are numbered by a sequence and a trigger. -/
def sequenceColumns (s : Scope) (p : Profile) : List (Table × Column) :=
  if p.numbering = .sequenceTrigger then s.numberedColumns else []

/-- The blocks of the script, which may be empty. -/
def allBlocks (s : Scope) (p : Profile) : List Block :=
  [⟨none, "\n", p.headerStatements.map .header⟩] ++
  s.tables.map (fun t => ⟨none, "\n", [.createTable t]⟩) ++
  [⟨some "Sequences", "\n", (s.sequenceColumns p).map fun n => .createSequence n.1 n.2⟩,
    ⟨some "Triggers", "\n\n", (s.sequenceColumns p).map fun n => .createTrigger n.1 n.2⟩,
    ⟨some "Constraints", "\n",
      (s.tables.flatMap (p.deferredConstraints s)).map .addConstraint⟩]

/-- The blocks that have statements. -/
def blocks (s : Scope) (p : Profile) : List Block :=
  (s.allBlocks p).filter fun b => !b.statements.isEmpty

/-- The script for the tables in the scope. -/
def scriptText (s : Scope) (p : Profile) : String :=
  String.intercalate "\n\n" ((s.blocks p).map (·.text p s)) ++ "\n"

end Scope
end SchemaScript
