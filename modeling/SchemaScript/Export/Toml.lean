import SchemaScript.Export.Options
import SchemaScript.Toml.Reader

/-!
# SchemaScript.Export.Toml

Options written as a TOML document. Keys that are missing keep their defaults, and the prefix is
trimmed as a given one.
-/

namespace SchemaScript
namespace ExportOptions

/-- The flag under a name, or its default; `none` for a value that is no flag. -/
def flagIn? (ms : Toml.Members) (name : String) (default : Bool) : Option Bool :=
  match ms.lookup name with
  | none => some default
  | some (.bool b) => some b
  | some _ => none

/-- The text under a name, or its default; `none` for a value that is no text. -/
def textIn? (ms : Toml.Members) (name : String) (default : String) : Option String :=
  match ms.lookup name with
  | none => some default
  | some (.string s) => some s
  | some _ => none

def ofMembers? (ms : Toml.Members) : Option ExportOptions :=
  match flagIn? ms "strict_references" standard.strictReferences,
    textIn? ms "filename_prefix" standard.filenamePrefix,
    flagIn? ms "log_diagnostics" standard.logDiagnostics with
  | some strict, some filenamePrefix, some log =>
    some (withFilenamePrefix filenamePrefix ⟨strict, filenamePrefix, log⟩)
  | _, _, _ => none

def ofToml? (text : String) : Option ExportOptions :=
  (Toml.read text).bind ofMembers?

end ExportOptions
end SchemaScript
