import SchemaScript.Json.Lexeme

/-!
# SchemaScript.Json.Reader

Reading of JSON values. Containers may be nested 127 deep. A value that nobody asked for is passed
over by `skipValue`, which checks its form but neither its depth nor the size of its numbers.
-/

namespace SchemaScript
namespace Json

/-! ## Containers -/

/-- Where the next item of an array starts; `none` at the closing bracket. The text is read from
behind the opening bracket, then from behind an item on. -/
def nextItem (first : Bool) (s : List Char) : Except Fault (Option (List Char) × List Char) :=
  match skipSpace s with
  | [] => fail .endInList [] 0
  | ']' :: rest => .ok (none, rest)
  | c :: rest =>
    if first then .ok (some (c :: rest), [])
    else if c = ',' then
      match skipSpace rest with
      | [] => fail .endInValue [] 0
      | ']' :: rest => fail .trailingComma (']' :: rest) 1
      | rest => .ok (some rest, [])
    else fail .expectedListSeparator (c :: rest) 1

/-- Items of an array with its closing bracket. -/
def readItems {α : Type} (item : Reader α) : Nat → Bool → Reader (List α)
  | 0, _, _ => fail .endInList [] 0
  | steps + 1, first, s =>
    match nextItem first s with
    | .error f => .error f
    | .ok (none, rest) => .ok ([], rest)
    | .ok (some start, _) =>
      match item start with
      | .error f => .error f
      | .ok (v, rest) =>
        match readItems item steps false rest with
        | .error f => .error f
        | .ok (vs, rest) => .ok (v :: vs, rest)

/-- The colon between a name and its value. -/
def readColon (s : List Char) : Except Fault (Unit × List Char) :=
  match skipSpace s with
  | [] => fail .endInObject [] 0
  | ':' :: rest => .ok ((), rest)
  | rest => fail .expectedColon rest 1

/-- Where the name of the next member starts, behind its quote; `none` at the closing brace. -/
def nextName (first : Bool) (s : List Char) : Except Fault (Option (List Char) × List Char) :=
  match skipSpace s with
  | [] => fail .endInObject [] 0
  | '\x7d' :: rest => .ok (none, rest)
  | c :: rest =>
    if first then
      if c = '"' then .ok (some rest, []) else fail .keyNotString (c :: rest) 1
    else if c = ',' then
      match skipSpace rest with
      | [] => fail .endInValue [] 0
      | '"' :: rest => .ok (some rest, [])
      | '\x7d' :: rest => fail .trailingComma ('\x7d' :: rest) 1
      | rest => fail .keyNotString rest 1
    else fail .expectedObjectSeparator (c :: rest) 1

/-- Folds the members of an object, from behind its brace or from behind a member on, with the
closing brace. The step reads what follows the name. -/
def readMembers {σ : Type} (member : σ → String → Reader σ) : Nat → Bool → σ → Reader σ
  | 0, _, _, _ => fail .endInObject [] 0
  | steps + 1, first, state, s =>
    match nextName first s with
    | .error f => .error f
    | .ok (none, rest) => .ok (state, rest)
    | .ok (some start, _) =>
      match readString start with
      | .error f => .error f
      | .ok (name, rest) =>
        match member state name rest with
        | .error f => .error f
        | .ok (state, rest) => readMembers member steps false state rest

/-! ## Values -/

/-- A member of a generic object. -/
def readMember (value : Reader Value) (members : List (String × Value)) (name : String) :
    Reader (List (String × Value)) := fun s =>
  match readColon s with
  | .error f => .error f
  | .ok (_, rest) =>
    match value rest with
    | .error f => .error f
    | .ok (v, rest) => .ok ((name, v) :: members, rest)

/-- A value whose items, if it is a container, are read by `nested`; `none` allows no container. -/
def readValueBy (nested : Option (Reader Value)) (s : List Char) :
    Except Fault (Value × List Char) :=
  match skipSpace s with
  | [] => fail .endInValue [] 0
  | 'n' :: rest =>
    match readWord ['u', 'l', 'l'] rest with
    | .error f => .error f
    | .ok (_, rest) => .ok (.null, rest)
  | 't' :: rest =>
    match readWord ['r', 'u', 'e'] rest with
    | .error f => .error f
    | .ok (_, rest) => .ok (.bool true, rest)
  | 'f' :: rest =>
    match readWord ['a', 'l', 's', 'e'] rest with
    | .error f => .error f
    | .ok (_, rest) => .ok (.bool false, rest)
  | '"' :: rest =>
    match readString rest with
    | .error f => .error f
    | .ok (text, rest) => .ok (.string text, rest)
  | '-' :: rest =>
    match readNumber false rest with
    | .error f => .error f
    | .ok (n, rest) => .ok (.number n, rest)
  | '[' :: rest =>
    match nested with
    | none => fail .tooDeep ('[' :: rest) 1
    | some value =>
      match readItems value (rest.length + 1) true rest with
      | .error f => .error f
      | .ok (items, rest) => .ok (.array items, rest)
  | '\x7b' :: rest =>
    match nested with
    | none => fail .tooDeep ('\x7b' :: rest) 1
    | some value =>
      match readMembers (readMember value) (rest.length + 1) true [] rest with
      | .error f => .error f
      | .ok (members, rest) => .ok (.object members.reverse, rest)
  | c :: rest =>
    if isDigit c then
      match readNumber true (c :: rest) with
      | .error f => .error f
      | .ok (n, rest) => .ok (.number n, rest)
    else fail .expectedValue (c :: rest) 1

/-- A value with at most `depth` containers in each other. -/
def readValue : Nat → Reader Value
  | 0 => readValueBy none
  | depth + 1 => readValueBy (some (readValue depth))

def largestDepth : Nat := 127

/-- Nothing but blanks may follow a document. -/
def readEnd (s : List Char) : Except Fault Unit :=
  match skipSpace s with
  | [] => .ok ()
  | rest => fail .trailingCharacters rest 1

/-- The value of a whole text. -/
def read (text : String) : Except Fault Value :=
  match readValue largestDepth text.toList with
  | .error f => .error f
  | .ok (v, rest) =>
    match readEnd rest with
    | .error f => .error f
    | .ok _ => .ok v

/-! ## Values that nobody asked for -/

/-- Passes over the rest of a container, from behind its bracket or from behind an item on;
`closing` and `cause` belong to the kind of container, and `item` passes over one item. -/
def skipItems (closing : Char) (separatorCause endCause : Cause) (item : Reader Unit) :
    Nat → Bool → Reader Unit
  | 0, _, _ => fail endCause [] 0
  | steps + 1, first, s =>
    match skipSpace s with
    | [] => fail endCause [] 0
    | c :: rest =>
      if c = closing then .ok ((), rest)
      else if first ∨ c = ',' then
        match item (if first then c :: rest else rest) with
        | .error f => .error f
        | .ok (_, rest) =>
          skipItems closing separatorCause endCause item steps false rest
      else fail separatorCause (c :: rest) 1

/-- Passes over a member, from before its name on. -/
def skipMember (value : Reader Unit) : Reader Unit := fun s =>
  match skipSpace s with
  | [] => fail .endInObject [] 0
  | '"' :: rest =>
    match skipString rest with
    | .error f => .error f
    | .ok (_, rest) =>
      match readColon rest with
      | .error f => .error f
      | .ok (_, rest) => value rest
  | rest => fail .keyNotString rest 1

/-- Passes over a value with at most `depth` containers in each other. -/
def skipNested : Nat → Reader Unit
  | 0, _ => fail .endInValue [] 0
  | depth + 1, s =>
    match skipSpace s with
    | [] => fail .endInValue [] 0
    | 'n' :: rest => readWord ['u', 'l', 'l'] rest
    | 't' :: rest => readWord ['r', 'u', 'e'] rest
    | 'f' :: rest => readWord ['a', 'l', 's', 'e'] rest
    | '"' :: rest => skipString rest
    | '-' :: rest => skipNumber rest
    | '[' :: rest =>
      skipItems ']' .expectedListSeparator .endInList (skipNested depth) (rest.length + 1) true
        rest
    | '\x7b' :: rest =>
      skipItems '\x7d' .expectedObjectSeparator .endInObject (skipMember (skipNested depth))
        (rest.length + 1) true rest
    | c :: rest =>
      if isDigit c then skipNumber (c :: rest) else fail .expectedValue (c :: rest) 1

/-- Passes over a value of any depth. -/
def skipValue (s : List Char) : Except Fault (Unit × List Char) :=
  skipNested (s.length + 1) s

end Json
end SchemaScript
