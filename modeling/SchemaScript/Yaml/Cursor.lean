/-!
# SchemaScript.Yaml.Cursor

A place in a YAML text with its line and column, and the characters that the places of tokens depend
on. At the end of the text the next character counts as a line end.
-/

namespace SchemaScript
namespace Yaml

/-- Whether a character may stand in a YAML text. -/
def isAllowed (c : Char) : Bool :=
  c == '\t' || c == '\n' || c == '\r' || (0x20 ≤ c.val && c.val ≤ 0x7E) || c.val == 0x85 ||
    (0xA0 ≤ c.val && c.val ≤ 0xD7FF) || (0xE000 ≤ c.val && c.val ≤ 0xFFFD) || 0x10000 ≤ c.val

def isBreak (c : Char) : Bool :=
  c == '\n' || c == '\r' || c.val == 0x85 || c.val == 0x2028 || c.val == 0x2029

def isBlank (c : Char) : Bool :=
  c == ' ' || c == '\t'

/-- Whether the text is at an end or a line end. -/
def atBreak : List Char → Bool
  | [] => true
  | c :: _ => isBreak c

/-- Whether the text is at an end, a line end, a space or a tab. -/
def atGap : List Char → Bool
  | [] => true
  | c :: _ => isBreak c || isBlank c

/-- The characters of names: letters, digits, the underscore and the dash. -/
def isNameChar (c : Char) : Bool :=
  ('0' ≤ c && c ≤ '9') || ('A' ≤ c && c ≤ 'Z') || ('a' ≤ c && c ≤ 'z') || c == '_' || c == '-'

structure Cursor where
  rest : List Char
  index : Nat
  line : Nat
  column : Nat

namespace Cursor

def start (text : List Char) : Cursor :=
  ⟨text, 0, 0, 0⟩

/-- Passes over one character that is no line end. -/
def skip (c : Cursor) : Cursor :=
  ⟨c.rest.tail, c.index + 1, c.line, c.column + 1⟩

def skipMany (c : Cursor) (n : Nat) : Cursor :=
  ⟨c.rest.drop n, c.index + n, c.line, c.column + n⟩

/-- Passes over a line end; a line feed right behind a carriage return belongs to it. -/
def skipBreak (c : Cursor) : Cursor :=
  match c.rest with
  | '\r' :: '\n' :: rest => ⟨rest, c.index + 2, c.line + 1, 0⟩
  | _ :: rest => ⟨rest, c.index + 1, c.line + 1, 0⟩
  | [] => c

/-- The text of the line end here: all but the two separators of Unicode are line feeds. -/
def breakText (c : Cursor) : List Char :=
  match c.rest with
  | d :: _ => if d.val = 0x2028 ∨ d.val = 0x2029 then [d] else ['\n']
  | [] => []

/-- Passes over the characters up to the first one without the property. -/
def skipWhile (c : Cursor) (p : Char → Bool) : Cursor :=
  c.skipMany (c.rest.takeWhile p).length

def faces (c : Cursor) (d : Char) : Bool :=
  c.rest.head? == some d

/-- Whether a mark of three equal characters that separates documents stands here. -/
def atDocumentMark (c : Cursor) (d : Char) : Bool :=
  c.column == 0 && c.rest.take 3 == [d, d, d] && atGap (c.rest.drop 3)

def atAnyDocumentMark (c : Cursor) : Bool :=
  c.atDocumentMark '-' || c.atDocumentMark '.'

end Cursor
end Yaml
end SchemaScript
