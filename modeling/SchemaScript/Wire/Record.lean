import SchemaScript.Wire.Codec

/-!
# SchemaScript.Wire.Record

Records that travel as objects with named fields. Members are read in the order of the document, and
the first failure wins; names without a field are passed over. A record may also be given as the
array of its fields.
-/

namespace SchemaScript
namespace Wire

open Json (Value Refusal Reader Fault)
open Yaml (Node Reading)

/-- A field of a record `ρ`: reading it gives the change that it makes to the record. -/
structure Field (ρ : Type) where
  name : String
  aliases : List String
  /-- Whether the record cannot do without the field. -/
  required : Bool
  codec : Codec (ρ → ρ)

namespace Field

variable {ρ α : Type}

def mandatory (name : String) (c : Codec α) (set : α → ρ → ρ) : Field ρ :=
  ⟨name, [], true, c.map set⟩

def optional (name : String) (c : Codec α) (set : α → ρ → ρ) : Field ρ :=
  ⟨name, [], false, c.map set⟩

def answersTo (f : Field ρ) (name : String) : Bool :=
  f.name == name || f.aliases.contains name

end Field

/-- A record under construction: its fields so far and their names. -/
structure Draft (ρ : Type) where
  seen : List String
  record : ρ

structure Record (ρ : Type) where
  name : String
  fields : List (Field ρ)
  /-- The record before any field is read. -/
  start : ρ

namespace Record

variable {ρ : Type}

def draft (r : Record ρ) : Draft ρ :=
  ⟨[], r.start⟩

def field? (r : Record ρ) (name : String) : Option (Field ρ) :=
  r.fields.find? (·.answersTo name)

/-- The record of a draft in which no required field is missing. -/
def finish (r : Record ρ) (d : Draft ρ) : Except Refusal ρ :=
  match r.fields.find? fun f => f.required && !d.seen.contains f.name with
  | some f => .error (.missingField f.name)
  | none => .ok d.record

def put (d : Draft ρ) (f : Field ρ) (change : ρ → ρ) : Draft ρ :=
  ⟨f.name :: d.seen, change d.record⟩

/-- Counts from `index` to the first required field. -/
def requiredFrom (index : Nat) : List (Field ρ) → Option Nat
  | [] => none
  | f :: rest => if f.required then some index else requiredFrom (index + 1) rest

/-! ## From values -/

def ofMembers (r : Record ρ) : Draft ρ → List (String × Value) → Except Refusal (Draft ρ)
  | d, [] => .ok d
  | d, (name, v) :: rest =>
    match r.field? name with
    | none => r.ofMembers d rest
    | some f =>
      if d.seen.contains f.name then .error (.duplicateField f.name)
      else
        match f.codec.ofValue v with
        | .error e => .error e
        | .ok change => r.ofMembers (put d f change) rest

def ofItems (r : Record ρ) (count index : Nat) :
    List (Field ρ) → Draft ρ → List Value → Except Refusal ρ
  | fields, d, [] =>
    match requiredFrom index fields with
    | some length => .error (.tooShort length r.name r.fields.length)
    | none => .ok d.record
  | [], _, _ :: _ => .error (.tooLong count)
  | f :: fields, d, v :: rest =>
    match f.codec.ofValue v with
    | .error e => .error e
    | .ok change => r.ofItems count (index + 1) fields (put d f change) rest

def ofValue (r : Record ρ) : Value → Except Refusal ρ
  | .object members =>
    match r.ofMembers r.draft members with
    | .error e => .error e
    | .ok d => r.finish d
  | .array items => r.ofItems items.length 0 r.fields r.draft items
  | v => .error (.invalidType (.ofValue v) (.record r.name))

/-! ## From text -/

/-- Passes over blanks and a closing brace, where a record is refused as a whole. -/
def beyondBrace (s : List Char) : List Char :=
  match Json.skipSpace s with
  | '\x7d' :: rest => rest
  | rest => rest

/-- What follows a name in a record. -/
def memberOfText (r : Record ρ) (d : Draft ρ) (name : String) : Reader (Draft ρ) := fun s =>
  match r.field? name with
  | none =>
    match Json.readColon s with
    | .error f => .error f
    | .ok (_, rest) =>
      match Json.skipValue rest with
      | .error f => .error f
      | .ok (_, rest) => .ok (d, rest)
  | some field =>
    if d.seen.contains field.name then
      Json.fail (.refused (.duplicateField field.name)) (beyondBrace s) 0
    else
      match Json.readColon s with
      | .error f => .error f
      | .ok (_, rest) =>
        match field.codec.ofText rest with
        | .error f => .error f
        | .ok (change, rest) => .ok (put d field change, rest)

/-- Nothing may follow the last field in the array form. -/
def closeItems (s : List Char) : Except Fault (List Char) :=
  match Json.skipSpace s with
  | [] => Json.fail .endInList [] 0
  | ']' :: rest => .ok rest
  | ',' :: rest =>
    match Json.skipSpace rest with
    | ']' :: rest => Json.fail .trailingComma (']' :: rest) 1
    | rest => Json.fail .trailingCharacters rest 1
  | rest => Json.fail .trailingCharacters rest 1

/-- The array form, from behind its bracket or from behind an item on. -/
def itemsOfText (r : Record ρ) (index : Nat) :
    List (Field ρ) → Draft ρ → Reader ρ
  | [], d, s =>
    match closeItems s with
    | .error f => .error f
    | .ok rest => .ok (d.record, rest)
  | field :: fields, d, s =>
    match Json.nextItem (index = 0) s with
    | .error f => .error f
    | .ok (none, rest) =>
      match requiredFrom index (field :: fields) with
      | some length => Json.fail (.refused (.tooShort length r.name r.fields.length)) rest 0
      | none => .ok (d.record, rest)
    | .ok (some start, _) =>
      match field.codec.ofText start with
      | .error f => .error f
      | .ok (change, rest) => r.itemsOfText (index + 1) fields (put d field change) rest

def ofText (r : Record ρ) (s : List Char) : Except Fault (ρ × List Char) :=
  match Json.skipSpace s with
  | '[' :: rest => r.itemsOfText 0 r.fields r.draft rest
  | '\x7b' :: rest =>
    match Json.readMembers r.memberOfText (rest.length + 1) true r.draft rest with
    | .error f => .error f
    | .ok (d, rest) =>
      match r.finish d with
      | .error e => Json.fail (.refused e) rest 0
      | .ok record => .ok (record, rest)
  | rest => refuse (.record r.name) rest

/-! ## From nodes -/

/-- The field that a key names, or numbers if it is read by value; `none` for a key that no record
can have. -/
def fieldOfKey (r : Record ρ) (reading : Reading) : Node → Option (Option (Field ρ))
  | .scalar tag style text =>
    match reading with
    | .byField => some (r.field? text)
    | .byValue =>
      match Yaml.resolve tag style text with
      | some (.text name) => some (r.field? name)
      | some (.natural n) => some r.fields[n]?
      | _ => none
  | _ => none

def ofPairs (r : Record ρ) (reading : Reading) :
    Draft ρ → List (Node × Node) → Option (Draft ρ)
  | d, [] => some d
  | d, (key, node) :: rest =>
    match r.fieldOfKey reading key with
    | none => none
    | some none => r.ofPairs reading d rest
    | some (some f) =>
      if d.seen.contains f.name then none
      else
        match f.codec.ofNode reading node with
        | none => none
        | some change => r.ofPairs reading (put d f change) rest

/-- The array form, which only a record that is read by value can have. -/
def ofNodes : List (Field ρ) → ρ → List Node → Option ρ
  | fields, record, [] => if fields.any (·.required) then none else some record
  | [], _, _ :: _ => none
  | f :: fields, record, node :: rest =>
    match f.codec.ofNode .byValue node with
    | none => none
    | some change => ofNodes fields (change record) rest

def ofNode (r : Record ρ) (reading : Reading) : Node → Option ρ
  | .mapping _ pairs => (r.ofPairs reading r.draft pairs).bind fun d => (r.finish d).toOption
  | .sequence _ items => if reading = .byValue then ofNodes r.fields r.start items else none
  | node =>
    if reading = .byField ∧ isEmptyNode node then (r.finish r.draft).toOption else none

def codec (r : Record ρ) : Codec ρ where
  ofValue := r.ofValue
  ofText := r.ofText
  ofNode := r.ofNode

end Record

end Wire
end SchemaScript
