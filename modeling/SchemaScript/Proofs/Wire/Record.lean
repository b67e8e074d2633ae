import Mathlib.Data.List.Forall2
import SchemaScript.Wire.Record

/-!
# SchemaScript.Proofs.Wire.Record

Records are read back from the members that are written for them.

* `Codec.Reads`: a codec gives back every value that is written in a certain way; lists and optional
  values inherit this from what they are made of.
* `Field.Reads`, `Record.written`: what is written for a field, and the members of a record in the
  order of its fields, of which those that are absent are left out.
* `Record.ofValue_written`: from these members the record is built field by field.
-/

namespace SchemaScript
namespace Wire

open Json (Value)

section Codecs

variable {α β : Type}

/-- The codec gives back every value that `toJson` writes. -/
def Codec.Reads (c : Codec α) (toJson : α → Value) : Prop :=
  ∀ a, c.ofValue (toJson a) = .ok a

theorem reads_string : string.Reads .string := by
  intro s
  rfl

theorem reads_bool : bool.Reads .bool := by
  intro b
  rfl

theorem itemsOfValues_map {c : Codec α} {toJson : α → Value} (h : c.Reads toJson)
    (items : List α) : itemsOfValues c (items.map toJson) = .ok items := by
  induction items with
  | nil => rfl
  | cons a items ih => simp only [List.map_cons, itemsOfValues, h a, ih]

theorem Codec.Reads.list {c : Codec α} {toJson : α → Value} (h : c.Reads toJson) :
    (list c).Reads fun items => .array (items.map toJson) := by
  intro items
  exact itemsOfValues_map h items

/-- A value that is present is read through an optional codec, unless it is written as null. -/
theorem optional_ofValue {c : Codec α} {v : Value} {a : α} (hv : v ≠ .null)
    (h : c.ofValue v = .ok a) : (optional c).ofValue v = .ok (some a) := by
  cases v with
  | null => exact absurd rfl hv
  | _ => simp only [optional, h]

theorem map_ofValue {c : Codec α} {v : Value} {a : α} (f : α → β) (h : c.ofValue v = .ok a) :
    (c.map f).ofValue v = .ok (f a) := by
  simp only [Codec.map, h]

end Codecs

section Records

variable {ρ : Type}

/-- What is written for a field, with the change that reading it makes to the record; `none` if the
field is left out. -/
abbrev FieldPart (ρ : Type) := Option (Value × (ρ → ρ))

namespace FieldPart

variable {α : Type}

def present (toJson : α → Value) (set : α → ρ → ρ) (a : α) : FieldPart ρ :=
  some (toJson a, set a)

def ofOption (toJson : α → Value) (set : Option α → ρ → ρ) (a : Option α) : FieldPart ρ :=
  a.map fun a => (toJson a, set (some a))

def change (part : FieldPart ρ) (record : ρ) : ρ :=
  match part with
  | some w => w.2 record
  | none => record

end FieldPart

/-- Reading what is written for the field makes the change. -/
def Field.Reads (f : Field ρ) (part : FieldPart ρ) : Prop :=
  ∀ w ∈ part, f.codec.ofValue w.1 = .ok w.2

namespace Field

variable {α : Type} {c : Codec α} {toJson : α → Value}

theorem reads_present {f : Field ρ} {set : α → ρ → ρ} (hf : f.codec = c.map set)
    (h : c.Reads toJson) (a : α) : f.Reads (.present toJson set a) := by
  intro w hw
  cases hw
  rw [hf]
  exact map_ofValue set (h a)

theorem reads_ofOption {f : Field ρ} {set : Option α → ρ → ρ}
    (hf : f.codec = (Wire.optional c).map set) (h : c.Reads toJson)
    (hnull : ∀ a, toJson a ≠ .null) (a : Option α) : f.Reads (.ofOption toJson set a) := by
  intro w hw
  cases a with
  | none => cases hw
  | some a =>
    cases hw
    rw [hf]
    exact map_ofValue set (optional_ofValue (hnull a) (h a))

end Field

namespace Record

/-- Members in the order of the fields. -/
def written (fields : List (Field ρ)) (parts : List (FieldPart ρ)) : List (String × Value) :=
  (fields.zip parts).filterMap fun e => e.2.map fun w => (e.1.name, w.1)

/-- No field answers to the name of a later one. -/
def IsDistinct (r : Record ρ) : Prop :=
  r.fields.Pairwise fun f g => f.answersTo g.name = false

instance (r : Record ρ) : Decidable r.IsDistinct :=
  inferInstanceAs (Decidable (r.fields.Pairwise _))

theorem answersTo_name (f : Field ρ) : f.answersTo f.name = true := by
  simp [Field.answersTo]

theorem field?_of_mem {r : Record ρ} (hr : r.IsDistinct) {f : Field ρ} (hf : f ∈ r.fields) :
    r.field? f.name = some f := by
  obtain ⟨before, after, hfields⟩ := List.append_of_mem hf
  have hbefore : before.find? (·.answersTo f.name) = none := by
    rw [List.find?_eq_none]
    intro g hg
    rw [IsDistinct, hfields] at hr
    simp [(List.pairwise_append.mp hr).2.2 g hg f (by simp)]
  rw [field?, hfields, List.find?_append, hbefore, Option.none_or]
  exact List.find?_cons_of_pos (answersTo_name f)

theorem ne_name_of_isDistinct {f g : Field ρ} (h : f.answersTo g.name = false) :
    f.name ≠ g.name := by
  intro he
  rw [← he, answersTo_name] at h
  cases h

/-- Members that are written for some of the fields make the changes of these fields, and their
names have then been seen. -/
theorem ofMembers_written {r : Record ρ} (hr : r.IsDistinct) {fields : List (Field ρ)}
    {parts : List (FieldPart ρ)} (h : List.Forall₂ Field.Reads fields parts) :
    ∀ d : Draft ρ, (∀ f ∈ fields, f ∈ r.fields ∧ f.name ∉ d.seen) →
      fields.Pairwise (fun f g => f.answersTo g.name = false) →
      ∃ seen, r.ofMembers d (written fields parts) =
          .ok ⟨seen, parts.foldl (fun record part => part.change record) d.record⟩ ∧
        ∀ name, name ∈ seen ↔ name ∈ d.seen ∨ name ∈ (written fields parts).map (·.1) := by
  induction h with
  | nil =>
    intro d _ _
    exact ⟨d.seen, rfl, by simp [written]⟩
  | @cons f part fields parts hpart _ ih =>
    intro d hfields hdistinct
    obtain ⟨hf, hrest⟩ := List.pairwise_cons.mp hdistinct
    cases part with
    -- A field that is left out has no member, and its name stays unseen.
    | none =>
      exact ih d (fun g hg => hfields g (by simp [hg])) hrest
    | some w =>
      obtain ⟨hmem, hseen⟩ := hfields f (by simp)
      have hstep : r.ofMembers d (written (f :: fields) (some w :: parts)) =
          r.ofMembers (put d f w.2) (written fields parts) := by
        have hcons : written (f :: fields) (some w :: parts) =
            (f.name, w.1) :: written fields parts := rfl
        simp [hcons, ofMembers, field?_of_mem hr hmem, hseen, hpart w rfl]
      -- The later fields have other names, so that none of them counts as seen by this step.
      obtain ⟨seen, hok, hnames⟩ := ih (put d f w.2) (by
        intro g hg
        refine ⟨(hfields g (by simp [hg])).1, ?_⟩
        simp only [put, List.mem_cons, not_or]
        exact ⟨(ne_name_of_isDistinct (hf g hg)).symm, (hfields g (by simp [hg])).2⟩) hrest
      refine ⟨seen, hstep.trans hok, fun name => ?_⟩
      rw [hnames]
      simp [put, written, or_assoc, or_left_comm]

/-- A record is built from the members that are written for its fields, if none of them is missing
that it cannot do without. -/
theorem ofValue_written {r : Record ρ} (hr : r.IsDistinct) {parts : List (FieldPart ρ)}
    (h : List.Forall₂ Field.Reads r.fields parts)
    (hrequired : ∀ f ∈ r.fields, f.required = true →
      f.name ∈ (written r.fields parts).map (·.1)) :
    r.ofValue (.object (written r.fields parts)) =
      .ok (parts.foldl (fun record part => part.change record) r.start) := by
  obtain ⟨seen, hok, hnames⟩ := ofMembers_written hr h r.draft (by simp [draft]) hr
  have hfind : (r.fields.find? fun f => f.required && !seen.contains f.name) = none := by
    rw [List.find?_eq_none]
    intro f hf
    cases hq : f.required with
    | false => simp
    | true =>
      have hseen : f.name ∈ seen := (hnames f.name).mpr (.inr (hrequired f hf hq))
      simp [hseen]
  simp only [ofValue, hok, finish, hfind]
  rfl

end Record
end Records

end Wire
end SchemaScript
