import SchemaScript.Json.Reader
import SchemaScript.Yaml.Reader

/-!
# SchemaScript.Wire.Codec

How domain values are read from the formats they travel in: from a JSON value, from JSON text as it
streams by, and from a YAML node. A codec holds the three readers; codecs of optional values and of
lists are put together from those of their parts.
-/

namespace SchemaScript
namespace Wire

open Json (Value Refusal Found Wanted Reader Fault)
open Yaml (Node Reading)

structure Codec (α : Type) where
  ofValue : Value → Except Refusal α
  ofText : Reader α
  ofNode : Reading → Node → Option α

/-! ## Refusals in running text -/

/-- Refuses what starts here. Scalars are consumed first, brackets are not. -/
def refuse {α : Type} (wanted : Wanted) (s : List Char) : Except Fault α :=
  let refused (found : Found) (rest : List Char) : Except Fault α :=
    Json.fail (.refused (.invalidType found wanted)) rest 0
  match s with
  | [] => Json.fail .endInValue [] 0
  | 'n' :: rest =>
    match Json.readWord ['u', 'l', 'l'] rest with
    | .error f => .error f
    | .ok (_, rest) => refused .null rest
  | 't' :: rest =>
    match Json.readWord ['r', 'u', 'e'] rest with
    | .error f => .error f
    | .ok (_, rest) => refused (.bool true) rest
  | 'f' :: rest =>
    match Json.readWord ['a', 'l', 's', 'e'] rest with
    | .error f => .error f
    | .ok (_, rest) => refused (.bool false) rest
  | '"' :: rest =>
    match Json.readString rest with
    | .error f => .error f
    | .ok (text, rest) => refused (.string text) rest
  | '-' :: rest =>
    match Json.readNumber false rest with
    | .error f => .error f
    | .ok (n, rest) => refused (.number n) rest
  | '[' :: rest => refused .array ('[' :: rest)
  | '\x7b' :: rest => refused .object ('\x7b' :: rest)
  | c :: rest =>
    if Json.isDigit c then
      match Json.readNumber true (c :: rest) with
      | .error f => .error f
      | .ok (n, rest) => refused (.number n) rest
    else Json.fail .expectedValue (c :: rest) 1

/-! ## Scalars -/

def stringOfText (wanted : Wanted) (s : List Char) : Except Fault (String × List Char) :=
  match Json.skipSpace s with
  | '"' :: rest => Json.readString rest
  | rest => refuse wanted rest

def stringOfNode (reading : Reading) : Node → Option String
  | .scalar tag style text =>
    match reading with
    | .byField => some text
    | .byValue =>
      match Yaml.resolve tag style text with
      | some (.text s) => some s
      | _ => none
  | _ => none

def string : Codec String where
  ofValue
    | .string s => .ok s
    | v => .error (.invalidType (.ofValue v) .string)
  ofText := stringOfText .string
  ofNode := stringOfNode

def boolOfText (s : List Char) : Except Fault (Bool × List Char) :=
  match Json.skipSpace s with
  | 't' :: rest =>
    match Json.readWord ['r', 'u', 'e'] rest with
    | .error f => .error f
    | .ok (_, rest) => .ok (true, rest)
  | 'f' :: rest =>
    match Json.readWord ['a', 'l', 's', 'e'] rest with
    | .error f => .error f
    | .ok (_, rest) => .ok (false, rest)
  | rest => refuse .boolean rest

def boolOfNode (reading : Reading) : Node → Option Bool
  | .scalar tag style text =>
    match reading with
    | .byField =>
      if style = .plain ∨ (style = .literal ∧ tag = some (Yaml.coreTag "bool")) then
        Yaml.boolOf? text
      else none
    | .byValue =>
      match Yaml.resolve tag style text with
      | some (.bool b) => some b
      | _ => none
  | _ => none

def bool : Codec Bool where
  ofValue
    | .bool b => .ok b
    | v => .error (.invalidType (.ofValue v) .boolean)
  ofText := boolOfText
  ofNode := boolOfNode

/-! ## Optional values and lists -/

/-- Whether a node says that an optional value is absent; `none` if it says neither. -/
def isAbsent (reading : Reading) : Node → Option Bool
  | .absent => some true
  | .scalar tag style text =>
    match reading with
    | .byField =>
      if style ≠ .plain then some false
      else
        match tag with
        | none => some (text.isEmpty || Yaml.nullText? text)
        | some tag =>
          if tag = Yaml.coreTag "null" then if Yaml.nullText? text then some true else none
          else some false
    | .byValue => some (Yaml.resolve tag style text == some .null)
  | _ => some false

def optional {α : Type} (c : Codec α) : Codec (Option α) where
  ofValue
    | .null => .ok none
    | v =>
      match c.ofValue v with
      | .error r => .error r
      | .ok a => .ok (some a)
  ofText s :=
    match Json.skipSpace s with
    | 'n' :: rest =>
      match Json.readWord ['u', 'l', 'l'] rest with
      | .error f => .error f
      | .ok (_, rest) => .ok (none, rest)
    | rest =>
      match c.ofText rest with
      | .error f => .error f
      | .ok (a, rest) => .ok (some a, rest)
  ofNode reading node :=
    match isAbsent reading node with
    | none => none
    | some true => some none
    | some false => (c.ofNode reading node).map some

/-- Reads every item, the first failure wins. -/
def itemsOfValues {α : Type} (c : Codec α) : List Value → Except Refusal (List α)
  | [] => .ok []
  | v :: rest =>
    match c.ofValue v with
    | .error r => .error r
    | .ok a =>
      match itemsOfValues c rest with
      | .error r => .error r
      | .ok as => .ok (a :: as)

/-- Whether a node is empty, which a field of a list or a record takes for an empty container. -/
def isEmptyNode : Node → Bool
  | .absent => true
  | .scalar _ style text => style = .plain && text.isEmpty
  | _ => false

def list {α : Type} (c : Codec α) : Codec (List α) where
  ofValue
    | .array items => itemsOfValues c items
    | v => .error (.invalidType (.ofValue v) .sequence)
  ofText s :=
    match Json.skipSpace s with
    | '[' :: rest => Json.readItems c.ofText (rest.length + 1) true rest
    | rest => refuse .sequence rest
  ofNode reading
    | .sequence _ items => items.mapM (c.ofNode reading)
    | node => if reading = .byField ∧ isEmptyNode node then some [] else none

/-- Changes every value that is read. -/
def Codec.map {α β : Type} (f : α → β) (c : Codec α) : Codec β where
  ofValue v :=
    match c.ofValue v with
    | .error r => .error r
    | .ok a => .ok (f a)
  ofText s :=
    match c.ofText s with
    | .error f => .error f
    | .ok (a, rest) => .ok (f a, rest)
  ofNode reading node := (c.ofNode reading node).map f

/-! ## Whole texts -/

namespace Codec

variable {α : Type}

/-- The value that a JSON text gives. -/
def readJson (c : Codec α) (text : String) : Except Fault α :=
  match c.ofText text.toList with
  | .error f => .error f
  | .ok (a, rest) =>
    match Json.readEnd rest with
    | .error f => .error f
    | .ok _ => .ok a

/-- The value that a YAML document gives, its scalars being understood by their fields. -/
def readYaml (c : Codec α) (text : String) : Option α :=
  (Yaml.read text).bind (c.ofNode .byField)

end Codec
end Wire
end SchemaScript
