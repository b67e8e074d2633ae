import SchemaScript.Json.Refusal

/-!
# SchemaScript.Json.Fault

Faults of JSON texts: what is wrong, and where. Lines count from one; the column is the number of
bytes of the line that the reader has seen.
-/

namespace SchemaScript
namespace Json

inductive Cause where
  | endInList
  | endInObject
  | endInString
  | endInValue
  | expectedColon
  | expectedListSeparator
  | expectedObjectSeparator
  | expectedWord
  | expectedValue
  | invalidEscape
  | invalidNumber
  | numberOutOfRange
  | controlInString
  | keyNotString
  | loneSurrogate
  | endOfEscape
  | trailingComma
  | trailingCharacters
  | tooDeep
  | refused (r : Refusal)
deriving DecidableEq, Repr

/-- A place in a text: what is not consumed yet, and how many bytes of that were looked at. -/
structure Mark where
  rest : List Char
  ahead : Nat
deriving DecidableEq, Repr

structure Fault where
  cause : Cause
  mark : Mark
deriving DecidableEq, Repr

def Cause.message : Cause → String
  | .endInList => "EOF while parsing a list"
  | .endInObject => "EOF while parsing an object"
  | .endInString => "EOF while parsing a string"
  | .endInValue => "EOF while parsing a value"
  | .expectedColon => "expected `:`"
  | .expectedListSeparator => "expected `,` or `]`"
  | .expectedObjectSeparator => "expected `,` or `\x7d`"
  | .expectedWord => "expected ident"
  | .expectedValue => "expected value"
  | .invalidEscape => "invalid escape"
  | .invalidNumber => "invalid number"
  | .numberOutOfRange => "number out of range"
  | .controlInString => "control character (\\u0000-\\u001F) found while parsing a string"
  | .keyNotString => "key must be a string"
  | .loneSurrogate => "lone leading surrogate in hex escape"
  | .endOfEscape => "unexpected end of hex escape"
  | .trailingComma => "trailing comma"
  | .trailingCharacters => "trailing characters"
  | .tooDeep => "recursion limit exceeded"
  | .refused r => r.message

structure Position where
  line : Nat
  column : Nat
deriving DecidableEq, Repr

namespace Position

def start : Position := ⟨1, 0⟩

def next (p : Position) (c : Char) : Position :=
  if c = '\n' then ⟨p.line + 1, 0⟩ else ⟨p.line, p.column + c.utf8Size⟩

/-- The position after all characters. -/
def after (p : Position) (cs : List Char) : Position :=
  cs.foldl next p

/-- The position after as many bytes of the text, or at its end if it has fewer. -/
def afterBytes (p : Position) : Nat → List Char → Position
  | _, [] => p
  | bytes, c :: rest =>
    if bytes = 0 then p
    else if bytes < c.utf8Size then ⟨p.line, p.column + bytes⟩
    else (p.next c).afterBytes (bytes - c.utf8Size) rest

end Position

/-- The position of a mark in the text that it was made in. -/
def Mark.position (text : List Char) (m : Mark) : Position :=
  (Position.start.after (text.take (text.length - m.rest.length))).afterBytes m.ahead m.rest

def Fault.message (text : String) (f : Fault) : String :=
  let p := f.mark.position text.toList
  f.cause.message ++ " at line " ++ toString p.line ++ " column " ++ toString p.column

end Json
end SchemaScript
