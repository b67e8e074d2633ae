import SchemaScript.Wire.Codec

/-!
# SchemaScript.Wire.Choice

Values that travel as one of several names: as a string, or as an object whose only member has that
name and no content.
-/

namespace SchemaScript
namespace Wire

open Json (Value Refusal Reader Fault)
open Yaml (Node Reading)

/-- One of several values, each under a name. -/
structure Choice (α : Type) where
  options : List (String × α)

namespace Choice

variable {α : Type}

def names (c : Choice α) : List String :=
  c.options.map (·.1)

def find (c : Choice α) (name : String) : Except Refusal α :=
  match c.options.lookup name with
  | some a => .ok a
  | none => .error (.unknownName name c.names)

def ofValue (c : Choice α) : Value → Except Refusal α
  | .string name => c.find name
  | .object [(name, content)] =>
    match c.find name with
    | .error r => .error r
    | .ok a =>
      match content with
      | .null => .ok a
      | v => .error (.invalidType (.ofValue v) .nothing)
  | .object _ => .error .notOneMember
  | v => .error (.invalidType (.ofValue v) .choice)

/-- The name, from behind its quote on or from before it. -/
def nameOfText (c : Choice α) (s : List Char) : Except Fault (α × List Char) :=
  match stringOfText .choiceName s with
  | .error f => .error f
  | .ok (name, rest) =>
    match c.find name with
    | .error r => Json.fail (.refused r) rest 0
    | .ok a => .ok (a, rest)

/-- The empty content in the object form. -/
def contentOfText (s : List Char) : Except Fault (Unit × List Char) :=
  match Json.skipSpace s with
  | 'n' :: rest => Json.readWord ['u', 'l', 'l'] rest
  | rest => refuse .nothing rest

def ofText (c : Choice α) (s : List Char) : Except Fault (α × List Char) :=
  match Json.skipSpace s with
  | [] => Json.fail .endInValue [] 0
  | '"' :: rest => c.nameOfText ('"' :: rest)
  | '\x7b' :: rest =>
    match c.nameOfText rest with
    | .error f => .error f
    | .ok (a, rest) =>
      match Json.readColon rest with
      | .error f => .error f
      | .ok (_, rest) =>
        match contentOfText rest with
        | .error f => .error f
        | .ok (_, rest) =>
          match Json.skipSpace rest with
          | [] => Json.fail .endInObject [] 0
          | '\x7d' :: rest => .ok (a, rest)
          | rest => Json.fail .expectedValue rest 0
  | rest => Json.fail .expectedValue rest 1

/-- A choice by the number that a mapping gives as its key, or by its name. -/
def ofKey (c : Choice α) : Node → Option α
  | .scalar tag style text =>
    match Yaml.resolve tag style text with
    | some (.text name) => c.options.lookup name
    | some (.natural n) => (c.options[n]?).map (·.2)
    | _ => none
  | _ => none

def isNull : Node → Bool
  | .scalar tag style text => Yaml.resolve tag style text == some .null
  | _ => false

def ofNode (c : Choice α) (reading : Reading) (node : Node) : Option α :=
  match reading, node with
  | .byField, .scalar tag style text =>
    match Yaml.localTag? tag with
    | some name =>
      if style = .plain ∧ (text.isEmpty ∨ Yaml.nullText? text) then c.options.lookup name
      else none
    | none => c.options.lookup text
  | .byValue, .scalar tag style text =>
    match Yaml.resolve tag style text with
    | some (.text name) => c.options.lookup name
    | _ => none
  | .byValue, .mapping _ [(key, content)] => if isNull content then c.ofKey key else none
  | _, _ => none

def codec (c : Choice α) : Codec α where
  ofValue := c.ofValue
  ofText := c.ofText
  ofNode := c.ofNode

end Choice

end Wire
end SchemaScript
