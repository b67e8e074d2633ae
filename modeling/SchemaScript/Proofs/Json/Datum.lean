import SchemaScript.Json.Printer

/-!
# SchemaScript.Proofs.Json.Datum

Data on their way to JSON. The keys of a map are data themselves, and only a text can be the name of
a member, so that there are data without a value (`Datum.toValue`).
-/

namespace SchemaScript
namespace Json

inductive Datum where
  | value (v : Value)
  | text (s : String)
  | sequence (items : List Datum)
  | record (fields : List (String × Datum))
  | map (entries : List (Datum × Datum))

namespace Datum

/-- What is said about a map with a key that is no text. -/
def keyReason : String :=
  "key must be a string"

mutual

def toValue : Datum → Except String Value
  | .value v => .ok v
  | .text s => .ok (.string s)
  | .sequence items => (itemValues items).map .array
  | .record fields => (fieldMembers fields).map .object
  | .map entries => (entryMembers entries).map .object

def itemValues : List Datum → Except String (List Value)
  | [] => .ok []
  | d :: rest =>
    match d.toValue, itemValues rest with
    | .ok v, .ok vs => .ok (v :: vs)
    | .error reason, _ => .error reason
    | .ok _, .error reason => .error reason

def fieldMembers : List (String × Datum) → Except String (List (String × Value))
  | [] => .ok []
  | (name, d) :: rest =>
    match d.toValue, fieldMembers rest with
    | .ok v, .ok vs => .ok ((name, v) :: vs)
    | .error reason, _ => .error reason
    | .ok _, .error reason => .error reason

def entryMembers : List (Datum × Datum) → Except String (List (String × Value))
  | [] => .ok []
  | (key, d) :: rest =>
    match key with
    | .text name =>
      match d.toValue, entryMembers rest with
      | .ok v, .ok vs => .ok ((name, v) :: vs)
      | .error reason, _ => .error reason
      | .ok _, .error reason => .error reason
    | _ => .error keyReason

end

theorem itemValues_texts (texts : List String) :
    itemValues (texts.map .text) = .ok (texts.map .string) := by
  induction texts with
  | nil => rfl
  | cons s texts ih => rw [List.map_cons, itemValues, toValue, ih]; rfl

/-- A map from texts has a value. -/
theorem entryMembers_texts (members : List (String × Value)) :
    entryMembers (members.map fun m => (.text m.1, .value m.2)) = .ok members := by
  induction members with
  | nil => rfl
  | cons m members ih =>
    obtain ⟨name, v⟩ := m
    rw [List.map_cons, entryMembers, toValue, ih]

example : (map [(.sequence [.text "a"], .text "b")]).toValue = .error keyReason := rfl

end Datum
end Json
end SchemaScript
