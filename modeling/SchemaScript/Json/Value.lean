import SchemaScript.Decimal.Shortest
import SchemaScript.Entries

/-!
# SchemaScript.Json.Value

JSON values. Members of an object keep their order, and a name may stand more than once until
`Value.merged` gives each name its first place and its last value.
-/

namespace SchemaScript
namespace Json

/-- A number as it was written: integers of 64 bits are exact, all others are double-precision
numbers, given by their bits. -/
inductive Number where
  | natural (n : Nat)
  | negative (n : Nat)
  | double (bits : UInt64)
deriving DecidableEq, Repr

inductive Value where
  | null
  | bool (b : Bool)
  | number (n : Number)
  | string (s : String)
  | array (items : List Value)
  | object (members : List (String × Value))
deriving Repr

namespace Number

def text : Number → String
  | .natural n => toString n
  | .negative n => "-" ++ toString n
  | .double bits => Decimal.doubleText bits

end Number

mutual

/-- The value in which every object has each of its names once. -/
def Value.merged : Value → Value
  | .array items => .array (mergedItems items)
  | .object members => .object (Entries.merge (mergedMembers members))
  | v => v

def mergedItems : List Value → List Value
  | [] => []
  | v :: rest => v.merged :: mergedItems rest

def mergedMembers : List (String × Value) → List (String × Value)
  | [] => []
  | (name, v) :: rest => (name, v.merged) :: mergedMembers rest

end

/-- The value of the first member called `name`. -/
def Value.member? (v : Value) (name : String) : Option Value :=
  match v with
  | .object members => members.lookup name
  | _ => none

end Json
end SchemaScript
