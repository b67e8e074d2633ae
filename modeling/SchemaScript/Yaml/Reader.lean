import SchemaScript.Yaml.Layout
import SchemaScript.Yaml.Tree

/-!
# SchemaScript.Yaml.Reader

The reading of a YAML text that holds one document.
-/

namespace SchemaScript
namespace Yaml

def read (text : String) : Option Node :=
  let cs := text.toList
  if cs.all isAllowed then (tokens? cs).bind Node.ofTokens? else none

end Yaml
end SchemaScript
