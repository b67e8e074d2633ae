import SchemaScript.Json.Value
import SchemaScript.Text.Quoted

/-!
# SchemaScript.Json.Refusal

Why a well-formed value is not a value of the wanted kind, and how that is said.
-/

namespace SchemaScript
namespace Json

/-- What stands where something else is wanted. -/
inductive Found where
  | null
  | bool (b : Bool)
  | number (n : Number)
  | string (s : String)
  | array
  | object
deriving DecidableEq, Repr

inductive Wanted where
  | string
  | boolean
  | sequence
  | record (name : String)
  /-- One of several names, given as a string or as the only member of an object. -/
  | choice
  /-- The name in the object form of a choice. -/
  | choiceName
  /-- The empty content in the object form of a choice. -/
  | nothing
deriving DecidableEq, Repr

inductive Refusal where
  | invalidType (found : Found) (wanted : Wanted)
  | missingField (name : String)
  | duplicateField (name : String)
  | unknownName (name : String) (known : List String)
  /-- An array that ends before a field without a default. -/
  | tooShort (length : Nat) (record : String) (fields : Nat)
  /-- An array with more items than the record has fields. -/
  | tooLong (length : Nat)
  /-- The object form of a choice with no member or with several. -/
  | notOneMember
deriving DecidableEq, Repr

def Found.ofValue : Value → Found
  | .null => .null
  | .bool b => .bool b
  | .number n => .number n
  | .string s => .string s
  | .array _ => .array
  | .object _ => .object

namespace Found

def text : Found → String
  | .null => "null"
  | .bool true => "boolean `true`"
  | .bool false => "boolean `false`"
  | .number (.double bits) => "floating point `" ++ Decimal.doubleText bits ++ "`"
  | .number n => "integer `" ++ n.text ++ "`"
  | .string s => "string " ++ Text.quoted s
  | .array => "sequence"
  | .object => "map"

end Found

def Wanted.text : Wanted → String
  | .string => "a string"
  | .boolean => "a boolean"
  | .sequence => "a sequence"
  | .record name => "struct " ++ name
  | .choice => "string or map"
  | .choiceName => "variant identifier"
  | .nothing => "unit"

/-- The known names of a choice, as an alternative. -/
def alternatives (names : List String) : String :=
  match names.map fun name => "`" ++ name ++ "`" with
  | [] => "there are no variants"
  | [a] => "expected " ++ a
  | [a, b] => "expected " ++ a ++ " or " ++ b
  | names => "expected one of " ++ String.intercalate ", " names

def Refusal.message : Refusal → String
  | .invalidType found wanted => "invalid type: " ++ found.text ++ ", expected " ++ wanted.text
  | .missingField name => "missing field `" ++ name ++ "`"
  | .duplicateField name => "duplicate field `" ++ name ++ "`"
  | .unknownName name known => "unknown variant `" ++ name ++ "`, " ++ alternatives known
  | .tooShort length record fields =>
    "invalid length " ++ toString length ++ ", expected struct " ++ record ++ " with " ++
      toString fields ++ (if fields = 1 then " element" else " elements")
  | .tooLong length =>
    "invalid length " ++ toString length ++ ", expected fewer elements in array"
  | .notOneMember => "invalid value: map, expected map with a single key"

end Json
end SchemaScript
