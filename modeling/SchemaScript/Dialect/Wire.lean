import SchemaScript.Dialect.Basic
import SchemaScript.Json.Value
import SchemaScript.Wire.Choice

/-!
# SchemaScript.Dialect.Wire

Dialects travel under their names.
-/

namespace SchemaScript
namespace Dialect

def choice : Wire.Choice Dialect :=
  ⟨all.map fun d => (d.name, d)⟩

def toJson (d : Dialect) : Json.Value :=
  .string d.name

end Dialect
end SchemaScript
