import SchemaScript.Json.Value
import SchemaScript.Text.Hex

/-!
# SchemaScript.Json.Printer

JSON text of a value: in one line without blanks, or with one item to a line and two blanks of
indentation for each level.

In a string the quote, the backslash and the controls are escaped, the controls with a short
escape if they have one and with four hexadecimal digits if not; all other characters stand for
themselves.
-/

namespace SchemaScript
namespace Json

def escapeChar (c : Char) : List Char :=
  match c with
  | '"' => ['\\', '"']
  | '\\' => ['\\', '\\']
  | '\x08' => ['\\', 'b']
  | '\x0c' => ['\\', 'f']
  | '\n' => ['\\', 'n']
  | '\r' => ['\\', 'r']
  | '\t' => ['\\', 't']
  | c =>
    if c.toNat < 32 then ['\\', 'u', '0', '0', Text.hexDigit (c.toNat / 16),
      Text.hexDigit (c.toNat % 16)]
    else [c]

def escapeChars (cs : List Char) : List Char :=
  cs.flatMap escapeChar

/-- The JSON string for a text. -/
def stringText (s : String) : String :=
  String.ofList ('"' :: escapeChars s.toList ++ ['"'])

mutual

/-- The text of a value without blanks. -/
def Value.compact : Value → String
  | .null => "null"
  | .bool true => "true"
  | .bool false => "false"
  | .number n => n.text
  | .string s => stringText s
  | .array items => "[" ++ String.intercalate "," (compactItems items) ++ "]"
  | .object members => "\x7b" ++ String.intercalate "," (compactMembers members) ++ "\x7d"

def compactItems : List Value → List String
  | [] => []
  | v :: rest => v.compact :: compactItems rest

def compactMembers : List (String × Value) → List String
  | [] => []
  | (name, v) :: rest => (stringText name ++ ":" ++ v.compact) :: compactMembers rest

end

/-- The blanks in front of a line at the given level. -/
def levelPad (level : Nat) : String :=
  String.ofList (List.replicate (2 * level) ' ')

/-- Items one to a line between brackets that stand at the given level. -/
def bracketed (level : Nat) (opening closing : String) (items : List String) : String :=
  match items with
  | [] => opening ++ closing
  | items =>
    opening ++ "\n" ++
      String.intercalate ",\n" (items.map fun item => levelPad (level + 1) ++ item) ++
      "\n" ++ levelPad level ++ closing

mutual

/-- The text of a value with one item to a line, for a value that starts at the given level. -/
def Value.prettyAt (level : Nat) : Value → String
  | .null => "null"
  | .bool true => "true"
  | .bool false => "false"
  | .number n => n.text
  | .string s => stringText s
  | .array items => bracketed level "[" "]" (prettyItems (level + 1) items)
  | .object members => bracketed level "\x7b" "\x7d" (prettyMembers (level + 1) members)

def prettyItems (level : Nat) : List Value → List String
  | [] => []
  | v :: rest => v.prettyAt level :: prettyItems level rest

def prettyMembers (level : Nat) : List (String × Value) → List String
  | [] => []
  | (name, v) :: rest =>
    (stringText name ++ ": " ++ v.prettyAt level) :: prettyMembers level rest

end

def Value.pretty (v : Value) : String :=
  v.prettyAt 0

end Json
end SchemaScript
