import SchemaScript.Model.Wire

/-!
# SchemaScript.Export.Options

Options of an export. Prefixes that are given step by step or in a document are trimmed, and a blank
one stands for the default; only options decoded as they are can hold anything else.
-/

namespace SchemaScript

structure ExportOptions where
  /-- Whether a reference to a table that is not exported is an error. -/
  strictReferences : Bool
  /-- How names of generated files begin. -/
  filenamePrefix : String
  /-- Whether findings about the model are logged. -/
  logDiagnostics : Bool
deriving DecidableEq, Repr

namespace ExportOptions

def defaultPrefix : String :=
  "schema"

/-- The default options. -/
def standard : ExportOptions :=
  ⟨false, defaultPrefix, true⟩

def strict : ExportOptions :=
  { standard with strictReferences := true }

def normalizePrefix (text : String) : String :=
  if Text.allBlank text then defaultPrefix else Text.trim text

def withStrictReferences (b : Bool) (o : ExportOptions) : ExportOptions :=
  { o with strictReferences := b }

def withFilenamePrefix (text : String) (o : ExportOptions) : ExportOptions :=
  { o with filenamePrefix := normalizePrefix text }

def withLogDiagnostics (b : Bool) (o : ExportOptions) : ExportOptions :=
  { o with logDiagnostics := b }

def wire : Wire.Record ExportOptions where
  name := "ExportOptions"
  fields := [
    .optional "strict_references" Wire.bool fun strictReferences o =>
      { o with strictReferences },
    .optional "filename_prefix" Wire.string fun filenamePrefix o => { o with filenamePrefix },
    .optional "log_diagnostics" Wire.bool fun logDiagnostics o => { o with logDiagnostics }]
  start := standard

def toJson (o : ExportOptions) : Json.Value :=
  .object [("strict_references", .bool o.strictReferences),
    ("filename_prefix", .string o.filenamePrefix), ("log_diagnostics", .bool o.logDiagnostics)]

end ExportOptions
end SchemaScript
