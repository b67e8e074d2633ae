import SchemaScript.Collection.Basic
import SchemaScript.Text.Lines

/-!
# SchemaScript.Collection.Shell

Shell scripts that create collections: for each collection a validator, a sample document, and an
index for each reference. Blocks are separated by a blank line, and the script ends with a line
feed.

Names in comments lose their line breaks; everywhere else they are JSON strings.
-/

namespace SchemaScript
namespace Collection

/-- A text in one line, each carriage return and line feed being a blank. -/
def commentText (text : String) : String :=
  String.ofList (text.toList.map fun c => if c = '\r' ∨ c = '\n' then ' ' else c)

def isNameStart (c : Char) : Bool :=
  ('A' ≤ c && c ≤ 'Z') || ('a' ≤ c && c ≤ 'z') || c == '_' || c == '$'

def isNamePart (c : Char) : Bool :=
  isNameStart c || ('0' ≤ c && c ≤ '9')

/-- Whether a name can stand behind a point. -/
def isPlainName (name : String) : Bool :=
  match name.toList with
  | [] => false
  | c :: rest => isNameStart c && rest.all isNamePart

/-- The expression for a collection. -/
def accessor (name : String) : String :=
  if isPlainName name then "db." ++ name else "db.getCollection(" ++ Json.stringText name ++ ")"

/-- Lines that follow the first one are moved to the right. -/
def indent (text : String) (width : Nat) : String :=
  match Text.lines text with
  | [] => ""
  | first :: rest =>
    let pad := String.ofList (List.replicate width ' ')
    String.intercalate "\n" (first :: rest.map fun line => pad ++ line)

/-- The value of a field in the sample document. -/
def sampleValue (field : String) : StorageType → String
  | .int => "1"
  | .double => "1.0"
  | .bool => "true"
  | .date => "ISODate()"
  | .object => "\x7b\x7d"
  | .string => Json.stringText (field ++ "_value")

def sampleDocument (c : Collection) : String :=
  match c.fields with
  | [] => "\x7b\x7d"
  | fields =>
    "\x7b\n" ++
      String.intercalate ",\n" (fields.map fun f =>
        "  " ++ Json.stringText f.1 ++ ": " ++ sampleValue f.1 f.2) ++
      "\n\x7d"

/-- The command that creates the collection with its validator. -/
def createBlock (c : Collection) : String :=
  "// Collection: " ++ commentText c.name ++ "\n" ++
  "// " ++ commentText c.schema.description ++ "\n" ++
  "db.createCollection(" ++ Json.stringText c.name ++ ", \x7b\n" ++
  "  validator: \x7b\n" ++
  "    $jsonSchema: " ++ indent c.schema.toJson.pretty 4 ++ "\n" ++
  "  \x7d\n" ++
  "\x7d);"

def sampleBlock (c : Collection) : String :=
  "// Sample document for " ++ commentText c.name ++ "\n" ++
  accessor c.name ++ ".insertOne(" ++ sampleDocument c ++ ");"

/-- The command for the index of a reference, under a note that says what it refers to. -/
def indexText (c : Collection) (r : CollectionReference) : String :=
  "// " ++ commentText c.name ++ "." ++ commentText r.field ++ " references " ++
    commentText r.collection ++ "." ++ commentText r.foreignField ++ " (" ++ r.kind.name ++ ")\n" ++
  accessor c.name ++ ".createIndex(\x7b " ++ Json.stringText r.field ++ ": 1 \x7d);"

/-- The blocks of one collection; the last one only if there are references. -/
def blocks (c : Collection) : List String :=
  [c.createBlock, c.sampleBlock] ++
    (if c.references.isEmpty then [] else
      [String.intercalate "\n" (c.references.map c.indexText)])

def banner : String :=
  "// MongoDB Schema Validation and Collection Creation\n" ++
  "// Run these commands in MongoDB shell or MongoDB Compass"

end Collection

/-- The script for the collections of the scope. -/
def Scope.shellText (s : Scope) : String :=
  String.intercalate "\n\n"
    (Collection.banner :: s.tables.flatMap fun t => (Collection.ofTable s t).blocks) ++ "\n"

end SchemaScript
