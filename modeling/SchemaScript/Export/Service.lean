import SchemaScript.Collection.Shell
import SchemaScript.Delivery.Basic
import SchemaScript.Export.Date
import SchemaScript.Export.Options
import SchemaScript.Review.Report
import SchemaScript.Script.Statement

/-!
# SchemaScript.Export.Service

Exports: from a model, a dialect, options and a date to a finished artifact, or to the reason why
there is none. The model is checked before anything is generated, and an artifact is delivered only
when it is complete. Each run also tells what it logged.
-/

namespace SchemaScript

structure Artifact where
  content : String
  filename : String
  mimeType : String
  dialect : Dialect
deriving DecidableEq, Repr

namespace Artifact

def mimeTypeFor (extension : String) : String :=
  if extension = ".sql" then "application/sql"
  else if extension = ".js" then "application/javascript"
  else if extension = ".json" then "application/json"
  else "text/plain"

/-- The name of the file: the prefix, the name of the dialect in small letters and one word, and the
date. -/
def filenameFor (start : String) (d : Dialect) (date : Date) : String :=
  start ++ "_" ++ String.intercalate "_" (Text.words (Text.lower d.name)) ++ "_" ++ date.text ++
    d.fileExtension

def parcel (a : Artifact) : Parcel :=
  ⟨a.content, a.filename, a.mimeType⟩

end Artifact

inductive ExportError where
  | unsupportedDialect (selector : String)
  | emptyModel
  | noExportableTables
  | unresolvedReference (table column target : String)
  /-- A value that has no JSON text, with what was said about it. -/
  | generationFailed (dialect : Dialect) (reason : String)
  | delivery (error : DeliveryError)
deriving DecidableEq, Repr

namespace ExportError

def serializationText (reason : String) : String :=
  "Serialization error: " ++ reason

def message : ExportError → String
  | .unsupportedDialect selector => Dialect.unsupportedMessage selector
  | .emptyModel => "No tables provided for export"
  | .noExportableTables => "No valid tables with columns found"
  | .unresolvedReference table column target =>
    "Unresolved reference " ++ table ++ "." ++ column ++ " -> " ++ target
  | .generationFailed dialect reason =>
    "export failed for dialect " ++ dialect.name ++ ": " ++ serializationText reason
  | .delivery error => "Delivery failed: " ++ error.message

/-- What is said about the cause of an error, for errors that have one. -/
def cause? : ExportError → Option String
  | .generationFailed _ reason => some (serializationText reason)
  | .delivery error => some error.message
  | _ => none

end ExportError

/-! ## Log -/

inductive LogEvent where
  | finding (text : String)
  | exporting (exported given : Nat) (dialect : Dialect)
  | dropping (table : Table) (link : Link)
  | generated (filename : String) (bytes : Nat)
deriving DecidableEq, Repr

namespace LogEvent

def level : LogEvent → String
  | .finding _ => "WARN"
  | .exporting _ _ _ => "INFO"
  | .dropping _ _ => "DEBUG"
  | .generated _ _ => "DEBUG"

def text : LogEvent → String
  | .finding text => text
  | .exporting exported given dialect =>
    "Exporting " ++ toString exported ++ " of " ++ toString given ++ " tables to " ++ dialect.name
  | .dropping t l =>
    "Dropping unresolved reference " ++ t.name ++ "." ++ l.column.name ++ " -> " ++
      l.target.table ++ "." ++ l.target.column
  | .generated filename bytes =>
    "Generated " ++ filename ++ " (" ++ toString bytes ++ " bytes)"

end LogEvent

/-! ## Generation -/

namespace Scope

/-- The references that are dropped when the foreign keys of a table are asked for. -/
def drops (s : Scope) (t : Table) : List LogEvent :=
  (s.dropped t).map fun l => .dropping t l

/-- What a pass over all tables logs if it asks for their foreign keys. -/
def passLog (s : Scope) (asks : Bool) : List LogEvent :=
  if asks then s.tables.flatMap s.drops else []

/-- The text for a dialect, with what its generation logs: a pass over the bodies of the tables and
one over their constraints, or a single pass over the collections. -/
def generate (s : Scope) (d : Dialect) : String × List LogEvent :=
  match d.profile? with
  | some p =>
    (s.scriptText p,
      s.passLog (p.foreignKeyPlacement == .tableBody) ++
        s.passLog (p.foreignKeyPlacement == .alterTable))
  | none => (s.shellText, s.passLog true)

end Scope

/-! ## Runs -/

/-- A result together with the log of the run that led to it. -/
structure Logged (α : Type) where
  result : Except ExportError α
  log : List LogEvent

namespace ExportOptions

/-- The findings about a model, if they are to be logged. -/
def diagnostics (o : ExportOptions) (tables : List Table) : List LogEvent :=
  if o.logDiagnostics then (Review.reportOn tables).warnings.map .finding else []

/-- The scope of an export. -/
def check (o : ExportOptions) (tables : List Table) : Logged Scope :=
  let scope := Scope.ofTables tables
  if tables.isEmpty then ⟨.error .emptyModel, []⟩
  else if scope.isEmpty then ⟨.error .noExportableTables, []⟩
  else
    let log := o.diagnostics tables
    match o.strictReferences, scope.unresolved with
    | true, (t, l) :: _ =>
      ⟨.error (.unresolvedReference t.name l.column.name
        (l.target.table ++ "." ++ l.target.column)), log⟩
    | _, _ => ⟨.ok scope, log⟩

/-- The export of a model to a dialect on a date. -/
def exportOn (o : ExportOptions) (tables : List Table) (d : Dialect) (date : Date) :
    Logged Artifact :=
  match o.check tables with
  | ⟨.error e, log⟩ => ⟨.error e, log⟩
  | ⟨.ok scope, log⟩ =>
    let (content, dropping) := scope.generate d
    let filename := Artifact.filenameFor o.filenamePrefix d date
    ⟨.ok ⟨content, filename, Artifact.mimeTypeFor d.fileExtension, d⟩,
      log ++ [.exporting scope.tables.length tables.length d] ++ dropping ++
        [.generated filename content.utf8ByteSize]⟩

/-- The export to the dialect that a selector denotes. -/
def exportTo (o : ExportOptions) (tables : List Table) (selector : String) (date : Date) :
    Logged Artifact :=
  match Dialect.parse? selector with
  | none => ⟨.error (.unsupportedDialect selector), []⟩
  | some d => o.exportOn tables d date

/-- An export whose artifact is handed to a delivery; nothing is delivered if the export fails. -/
def exportAndDeliver {m : Type → Type} [Monad m] (o : ExportOptions) (tables : List Table)
    (selector : String) (date : Date) (deliver : Parcel → m (Except DeliveryError Receipt)) :
    m (Logged (Artifact × Receipt)) :=
  match o.exportTo tables selector date with
  | ⟨.error e, log⟩ => pure ⟨.error e, log⟩
  | ⟨.ok artifact, log⟩ => do
    match ← deliver artifact.parcel with
    | .error e => pure ⟨.error (.delivery e), log⟩
    | .ok receipt => pure ⟨.ok (artifact, receipt), log⟩

end ExportOptions
end SchemaScript
