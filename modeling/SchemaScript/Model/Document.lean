import SchemaScript.Model.Wire
import SchemaScript.Text.Path

/-!
# SchemaScript.Model.Document

Model documents in JSON and YAML. A document is either an object with the list of tables or that
list itself; it is read as a whole before its form is looked at.
-/

namespace SchemaScript

inductive DocumentFault where
  /-- The text is no JSON, or more than one value. -/
  | json (fault : Json.Fault)
  /-- The text is a JSON value of another form. -/
  | jsonForm
  | yaml
deriving DecidableEq, Repr

namespace DocumentFault

/-- What is wrong with a JSON text. -/
def reason (text : String) : DocumentFault → String
  | .json fault => fault.message text
  | .jsonForm => "data did not match any variant of untagged enum ModelDocument"
  | .yaml => "not a model document"

def message (text : String) : DocumentFault → String
  | .yaml => "Failed to parse YAML model: " ++ reason text .yaml
  | fault => "Failed to parse JSON model: " ++ fault.reason text

end DocumentFault

namespace Model

/-- The model that a value describes, with or without the object around its tables. -/
def ofValue? (v : Json.Value) : Option Model :=
  match wire.ofValue v with
  | .ok m => some m
  | .error _ =>
    match (Wire.list Table.wire.codec).ofValue v with
    | .ok tables => some ⟨tables⟩
    | .error _ => none

def ofJson (text : String) : Except DocumentFault Model :=
  match Json.readValue Json.largestDepth text.toList with
  | .error f => .error (.json f)
  | .ok (v, rest) =>
    match ofValue? v with
    | none => .error .jsonForm
    | some m =>
      match Json.readEnd rest with
      | .error f => .error (.json f)
      | .ok _ => .ok m

/-- The model that a node describes by the values of its scalars. -/
def ofNode? (node : Yaml.Node) : Option Model :=
  if node.hasValue Yaml.largestDepth then
    match wire.ofNode .byValue node with
    | some m => some m
    | none => ((Wire.list Table.wire.codec).ofNode .byValue node).map fun tables => ⟨tables⟩
  else none

def ofYaml (text : String) : Except DocumentFault Model :=
  match (Yaml.read text).bind ofNode? with
  | some m => .ok m
  | none => .error .yaml

/-- The name at the end of a path; `none` if the path ends in two points or names nothing. -/
def fileName? (path : String) : Option String :=
  match ((Path.parts path).filter Path.namesSomething).getLast? with
  | some name => if name = ".." then none else some name
  | none => none

/-- What follows the last point of a name that has something in front of it. -/
def extension? (path : String) : Option String :=
  match fileName? path with
  | none => none
  | some name =>
    let reversed := name.toList.reverse
    match reversed.dropWhile (· ≠ '.') with
    | '.' :: _ :: _ => some (String.ofList (reversed.takeWhile (· ≠ '.')).reverse)
    | _ => none

/-- Whether a file of this path holds YAML. -/
def isYamlPath (path : String) : Bool :=
  match extension? path with
  | some extension =>
    Text.equalAsciiCase extension "yaml" || Text.equalAsciiCase extension "yml"
  | none => false

/-- Reads a document in the format that its path says. -/
def ofFile (path text : String) : Except DocumentFault Model :=
  if isYamlPath path then ofYaml text else ofJson text

end Model
end SchemaScript
