import SchemaScript.Yaml.Node
import SchemaScript.Yaml.Scalar

/-!
# SchemaScript.Yaml.Token

The tokens of a YAML text, and the reading of those that are not scalars: anchors, tags and the
rules in front of a document. Tokens without a character of their own mark where the collections
written by indentation begin and end.
-/

namespace SchemaScript
namespace Yaml

inductive Token where
  | versionRule (major minor : Nat)
  | handleRule (handle expansion : String)
  | documentStart
  | documentEnd
  | blockSequence
  | blockMapping
  | blockEnd
  | flowSequence
  | flowSequenceEnd
  | flowMapping
  | flowMappingEnd
  | blockEntry
  | flowEntry
  | key
  | value
  | alias (name : String)
  | anchor (name : String)
  | tag (handle suffix : String)
  | scalar (style : Style) (text : String)
deriving DecidableEq, Repr

/-! ## Anchors and aliases -/

/-- The name behind an ampersand or an asterisk. -/
def readAnchor (c : Cursor) : Option (String × Cursor) :=
  let name := c.rest.takeWhile isNameChar
  let c := c.skipMany name.length
  let ended := match c.rest with
    | [] => true
    | d :: _ => isBreak d || isBlank d || "?:,]\x7d%@\x60".toList.contains d
  if !name.isEmpty && ended then some (String.ofList name, c) else none

/-! ## Tags -/

def isTagChar (verbatim : Bool) (c : Char) : Bool :=
  isNameChar c || ";/?:@&=+$.%!~*'()".toList.contains c ||
    (verbatim && (c == ',' || c == '[' || c == ']'))

/-- The number of octets that a character has, from its first one. -/
def octetCount? (lead : Nat) : Option Nat :=
  if lead < 0x80 then some 1
  else if 0xC0 ≤ lead ∧ lead < 0xE0 then some 2
  else if 0xE0 ≤ lead ∧ lead < 0xF0 then some 3
  else if 0xF0 ≤ lead ∧ lead < 0xF8 then some 4
  else none

/-- An octet in two digits behind a percent sign. -/
def escapedOctet? : List Char → Option (Nat × List Char)
  | '%' :: a :: b :: rest => (Text.hexNumber? [a, b]).map fun n => (n, rest)
  | _ => none

/-- The further octets of an escaped character on top of its bits so far. -/
def escapedTail? : Nat → Nat → List Char → Option (Nat × List Char)
  | 0, bits, cs => some (bits, cs)
  | count + 1, bits, cs =>
    match escapedOctet? cs with
    | some (n, rest) =>
      if 0x80 ≤ n ∧ n < 0xC0 then escapedTail? count (64 * bits + n % 64) rest else none
    | none => none

/-- A character written as its octets. -/
def escapedChar? (cs : List Char) : Option (Char × List Char) :=
  match escapedOctet? cs with
  | none => none
  | some (lead, rest) =>
    match octetCount? lead with
    | none => none
    | some 1 => some (Char.ofNat lead, rest)
    | some n =>
      match escapedTail? (n - 1) (lead % Nat.pow 2 (7 - n)) rest with
      | some (bits, rest) => some ((Text.charOf? bits).getD '\ufffd', rest)
      | none => none

/-- The characters of a tag, escapes being resolved. -/
def readTagChars (verbatim : Bool) : Nat → Cursor → Option (List Char × Cursor)
  | 0, c => some ([], c)
  | steps + 1, c =>
    match c.rest with
    | [] => some ([], c)
    | d :: _ =>
      if !isTagChar verbatim d then some ([], c)
      else
        let one := if d = '%' then
            (escapedChar? c.rest).map fun (e, rest) =>
              (e, c.skipMany (c.rest.length - rest.length))
          else some (d, c.skip)
        match one with
        | none => none
        | some (e, c) =>
          match readTagChars verbatim steps c with
          | none => none
          | some (cs, c) => some (e :: cs, c)

/-- The start of a tag, from its exclamation mark on: `!`, or a name between two of them, or a name
behind one. -/
def readHandle (c : Cursor) : List Char × Cursor :=
  let name := c.rest.tail.takeWhile isNameChar
  let c := c.skipMany (name.length + 1)
  if c.faces '!' then ('!' :: name ++ ['!'], c.skip) else ('!' :: name, c)

/-- Whether the start of a tag is a handle with a name of its own, empty for `!!`. -/
def isNamedHandle (handle : List Char) : Bool :=
  2 ≤ handle.length && handle.getLast? == some '!'

def readTagText (verbatim : Bool) (c : Cursor) : Option (List Char × Cursor) :=
  readTagChars verbatim (c.rest.length + 1) c

/-- A tag between angle brackets, from behind the opening one on. -/
def readVerbatimTag (c : Cursor) : Option (Token × Cursor) :=
  match readTagText true c with
  | some (text, c) =>
    if !text.isEmpty ∧ c.faces '>' then some (.tag "" (String.ofList text), c.skip) else none
  | none => none

def readShortTag (c : Cursor) : Option (Token × Cursor) :=
  let (handle, c) := readHandle c
  match readTagText false c with
  | none => none
  | some (text, c) =>
    if isNamedHandle handle then
      if text.isEmpty then none
      else some (.tag (String.ofList handle) (String.ofList text), c)
    else
      let suffix := handle.tail ++ text
      if suffix.isEmpty then some (.tag "" "!", c) else some (.tag "!" (String.ofList suffix), c)

/-- A tag, from its exclamation mark on. -/
def readTag (inFlow : Bool) (c : Cursor) : Option (Token × Cursor) :=
  let tag := if c.skip.faces '<' then readVerbatimTag (c.skipMany 2) else readShortTag c
  match tag with
  | none => none
  | some (token, c) =>
    if atGap c.rest || (inFlow && c.faces ',') then some (token, c) else none

/-! ## Rules -/

/-- A number of at most nine digits. -/
def readVersionNumber (c : Cursor) : Option (Nat × Cursor) :=
  let digits := c.rest.takeWhile Text.isDecimal
  if digits.length ≤ 9 then
    (Text.numberIn? 10 digits).map fun n => (n, c.skipMany digits.length)
  else none

def readVersionRule (c : Cursor) : Option (Token × Cursor) :=
  match readVersionNumber (c.skipWhile isBlank) with
  | some (major, c) =>
    if c.faces '.' then
      (readVersionNumber c.skip).map fun (minor, c) => (.versionRule major minor, c)
    else none
  | none => none

def readHandleRule (c : Cursor) : Option (Token × Cursor) :=
  let c := c.skipWhile isBlank
  if !c.faces '!' then none
  else
    let (handle, c) := readHandle c
    if !(handle.length = 1 || isNamedHandle handle) || !((c.rest.head?.map isBlank) == some true)
    then none
    else
      match readTagText true (c.skipWhile isBlank) with
      | some (text, c) =>
        if !text.isEmpty ∧ atGap c.rest then
          some (.handleRule (String.ofList handle) (String.ofList text), c)
        else none
      | none => none

/-- A rule, from its percent sign on, with the line that it stands on. -/
def readRule (c : Cursor) : Option (Token × Cursor) :=
  let name := c.rest.tail.takeWhile isNameChar
  let c := c.skipMany (name.length + 1)
  let rule := if !atGap c.rest then none
    else if name = "YAML".toList then readVersionRule c
    else if name = "TAG".toList then readHandleRule c
    else none
  match rule with
  | none => none
  | some (token, c) =>
    let c := c.skipWhile isBlank
    let c := if c.faces '#' then c.skipWhile (fun d => !isBreak d) else c
    if atBreak c.rest then some (token, c.skipBreak) else none

end Yaml
end SchemaScript
