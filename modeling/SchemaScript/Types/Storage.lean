import SchemaScript.Text.Case

/-!
# SchemaScript.Types.Storage

Storage types of document fields. A type token is classified by the words that occur anywhere in
it; the first class with such a word wins, and a field without a token is a string.
-/

namespace SchemaScript

inductive StorageType where
  | int
  | double
  | bool
  | date
  | object
  | string
deriving DecidableEq, Repr

namespace StorageType

def bsonName : StorageType → String
  | .int => "int"
  | .double => "double"
  | .bool => "bool"
  | .date => "date"
  | .object => "object"
  | .string => "string"

/-- The classes in the order in which they are tried, with their words in small letters. -/
def keywords : List (StorageType × List String) := [
  (.int, ["int", "serial"]),
  (.double, ["float", "double", "decimal", "numeric"]),
  (.bool, ["bool"]),
  (.date, ["date", "time"]),
  (.object, ["json"])]

/-- Whether the word occurs in the text. -/
def occursIn (word : List Char) : List Char → Bool
  | [] => word.isEmpty
  | c :: rest => word.isPrefixOf (c :: rest) || occursIn word rest

def ofToken (token : String) : StorageType :=
  let plain := Text.lowerChars token.toList
  match keywords.find? fun entry => entry.2.any fun word => occursIn word.toList plain with
  | some (storage, _) => storage
  | none => .string

def classify : Option String → StorageType
  | none => .string
  | some token => ofToken token

end StorageType
end SchemaScript
