import Mathlib.Logic.Relation
import SchemaScript.Script.Scope

/-!
# SchemaScript.Proofs.Model.Idle

Changes of a model that say nothing new, such as one of the reference of a column that is no foreign
key. Each model has an effective one, in which all such entries are made equal; models that are
connected by idle changes have the same, and no other ones do (`sameMeaning_iff`).
-/

namespace SchemaScript

/-! ## Changes -/

/-- A change of a column that says nothing new. The kind of its reference can only change if kinds
are idle. -/
inductive Column.IdleChange (kinds : Bool) (c : Column) : Column → Prop
  | reference (r : Option Reference) (h : c.isForeignKey = false) :
      IdleChange kinds c { c with reference := r }
  | flag (b : Bool) (h : c.reference = none) : IdleChange kinds c { c with isForeignKey := b }
  | keyUnique (b : Bool) (h : c.isPrimaryKey = true) : IdleChange kinds c { c with isUnique := b }
  | keyNullable (b : Option Bool) (h : c.isPrimaryKey = true) :
      IdleChange kinds c { c with isNullable := b }
  | nullable (h : c.isNullable = none) : IdleChange kinds c { c with isNullable := some true }
  | emptyDefault (h : c.defaultValue = none) : IdleChange kinds c { c with defaultValue := some "" }
  | kind (r : Reference) (k : Cardinality) (h : c.reference = some r) (hk : kinds = true) :
      IdleChange kinds c { c with reference := some { r with kind := k } }

inductive Table.IdleChange (kinds : Bool) : Table → Table → Prop
  | column {c c' : Column} (name : String) (description : Option String)
      (before after : List Column) (h : c.IdleChange kinds c') :
      IdleChange kinds ⟨name, description, before ++ c :: after⟩
        ⟨name, description, before ++ c' :: after⟩
  | blankDescription (name text : String) (columns : List Column) (h : Text.allBlank text = true) :
      IdleChange kinds ⟨name, none, columns⟩ ⟨name, some text, columns⟩

/-- An idle change in one place of a model. -/
inductive IdleChange (kinds : Bool) : List Table → List Table → Prop
  | table {t t' : Table} (before after : List Table) (h : t.IdleChange kinds t') :
      IdleChange kinds (before ++ t :: after) (before ++ t' :: after)

/-- The models differ in idle entries only. -/
def SameMeaning (kinds : Bool) : List Table → List Table → Prop :=
  Relation.EqvGen (IdleChange kinds)

/-! ## Effective models -/

def Reference.effective (kinds : Bool) (r : Reference) : Reference :=
  if kinds then { r with kind := .manyToOne } else r

def Column.effective (kinds : Bool) (c : Column) : Column :=
  { c with
    isForeignKey := c.foreignKey?.isSome
    isNullable := if c.isRequired then some false else none
    isUnique := c.isUnique && !c.isPrimaryKey
    defaultValue := c.givenDefault?
    reference := c.foreignKey?.map (·.effective kinds) }

def Table.effective (kinds : Bool) (t : Table) : Table :=
  ⟨t.name, t.givenDescription?, t.columns.map (·.effective kinds)⟩

section Changes

variable {kinds : Bool}

theorem Column.effective_eq_of_idleChange {c c' : Column} (h : c.IdleChange kinds c') :
    c.effective kinds = c'.effective kinds := by
  cases h with
  | reference r h => simp [effective, foreignKey?, isRequired, givenDefault?, h]
  | flag b h => simp [effective, foreignKey?, isRequired, givenDefault?, h]
  | keyUnique b h => simp [effective, foreignKey?, isRequired, givenDefault?, h]
  | keyNullable b h => simp [effective, foreignKey?, isRequired, givenDefault?, h]
  | nullable h => simp [effective, foreignKey?, isRequired, givenDefault?, h]
  | emptyDefault h => simp [effective, foreignKey?, isRequired, givenDefault?, Option.filter, h]
  | kind r k h hk =>
    cases hflag : c.isForeignKey <;>
      simp [effective, foreignKey?, isRequired, givenDefault?, Reference.effective, h, hk, hflag]

theorem Table.effective_eq_of_idleChange {t t' : Table} (h : t.IdleChange kinds t') :
    t.effective kinds = t'.effective kinds := by
  cases h with
  | column name description before after h =>
    simp only [effective, givenDescription?, List.map_append, List.map_cons,
      Column.effective_eq_of_idleChange h]
  | blankDescription name text columns h => simp [effective, givenDescription?, Option.filter, h]

/-- Idle changes leave the effective model as it is. -/
theorem SameMeaning.effective_eq {tables tables' : List Table}
    (h : SameMeaning kinds tables tables') :
    tables.map (·.effective kinds) = tables'.map (·.effective kinds) := by
  induction h with
  | rel tables tables' h =>
    cases h with
    | table before after h =>
      simp only [List.map_append, List.map_cons, Table.effective_eq_of_idleChange h]
  | refl tables => rfl
  | symm tables tables' _ ih => exact ih.symm
  | trans tables tables' tables'' _ _ ih ih' => exact ih.trans ih'

end Changes

/-! ## Effective models are reached -/

section Reached

open Relation (EqvGen)

variable {kinds : Bool}

theorem eqvGen_image {α β : Type} {r : α → α → Prop} {r' : β → β → Prop} (f : α → β)
    (hf : ∀ a a', r a a' → r' (f a) (f a')) {a a' : α} (h : EqvGen r a a') :
    EqvGen r' (f a) (f a') := by
  induction h with
  | rel a a' h => exact .rel _ _ (hf a a' h)
  | refl a => exact .refl _
  | symm a a' _ ih => exact .symm _ _ ih
  | trans a a' a'' _ _ ih ih' => exact .trans _ _ _ ih ih'

/-- The members of a list are changed one by one. -/
theorem eqvGen_map {α : Type} {r : α → α → Prop} {r' : List α → List α → Prop} {f : α → α}
    (hf : ∀ a, EqvGen r a (f a))
    (hr : ∀ before after a a', r a a' → r' (before ++ a :: after) (before ++ a' :: after))
    (before as : List α) : EqvGen r' (before ++ as) (before ++ as.map f) := by
  induction as generalizing before with
  | nil => exact .refl _
  | cons a as ih =>
    -- The members in front of `a` have been changed already.
    have hhead := eqvGen_image (fun a => before ++ a :: as) (hr before as) (hf a)
    have htail := ih (before ++ [f a])
    rw [List.append_assoc, List.append_assoc] at htail
    exact .trans _ _ _ hhead htail

namespace Column

theorem eqvGen_effective_reference (c : Column) :
    EqvGen (IdleChange kinds) c
      { c with
        isForeignKey := c.foreignKey?.isSome
        reference := c.foreignKey?.map (·.effective kinds) } := by
  obtain ⟨name, dataType, key, flag, nullable, unique, value, reference⟩ := c
  cases flag with
  | false => exact .rel _ _ (.reference none rfl)
  | true =>
    cases reference with
    | none => exact .rel _ _ (.flag false rfl)
    | some r =>
      cases kinds with
      | false => exact .refl _
      | true => exact .rel _ _ (.kind r .manyToOne rfl rfl)

theorem eqvGen_effective_nullable (c : Column) :
    EqvGen (IdleChange kinds) c
      { c with isNullable := if c.isRequired then some false else none } := by
  obtain ⟨name, dataType, key, flag, nullable, unique, value, reference⟩ := c
  cases key with
  | true => exact .rel _ _ (.keyNullable _ rfl)
  | false =>
    cases nullable with
    | none => exact .refl _
    | some b =>
      cases b with
      | false => exact .refl _
      | true => exact .symm _ _ (.rel _ _ (.nullable rfl))

theorem eqvGen_effective_unique (c : Column) :
    EqvGen (IdleChange kinds) c { c with isUnique := c.isUnique && !c.isPrimaryKey } := by
  obtain ⟨name, dataType, key, flag, nullable, unique, value, reference⟩ := c
  cases key with
  | true => exact .rel _ _ (.keyUnique _ rfl)
  | false =>
    simp only [Bool.not_false, Bool.and_true]
    exact .refl _

theorem eqvGen_effective_default (c : Column) :
    EqvGen (IdleChange kinds) c { c with defaultValue := c.givenDefault? } := by
  obtain ⟨name, dataType, key, flag, nullable, unique, value, reference⟩ := c
  cases value with
  | none => exact .refl _
  | some value =>
    by_cases hvalue : value = ""
    · subst hvalue
      exact .symm _ _ (.rel _ _ (.emptyDefault rfl))
    · have hgiven : (some value).filter (fun value => decide (value ≠ "")) = some value := by
        simp [Option.filter, hvalue]
      simp only [givenDefault?, hgiven]
      exact .refl _

theorem eqvGen_effective (c : Column) : EqvGen (IdleChange kinds) c (c.effective kinds) :=
  .trans _ _ _ (eqvGen_effective_reference c) <|
    .trans _ _ _ (eqvGen_effective_nullable _) <|
      .trans _ _ _ (eqvGen_effective_unique _) (eqvGen_effective_default _)

end Column

namespace Table

theorem eqvGen_effective_description (t : Table) :
    EqvGen (IdleChange kinds) t { t with description := t.givenDescription? } := by
  obtain ⟨name, description, columns⟩ := t
  cases description with
  | none => exact .refl _
  | some text =>
    cases hblank : Text.allBlank text with
    | true =>
      have hgiven : (some text).filter (fun text => !Text.allBlank text) = none := by
        simp [Option.filter, hblank]
      simp only [givenDescription?, hgiven]
      exact .symm _ _ (.rel _ _ (.blankDescription name text columns hblank))
    | false =>
      have hgiven : (some text).filter (fun text => !Text.allBlank text) = some text := by
        simp [Option.filter, hblank]
      simp only [givenDescription?, hgiven]
      exact .refl _

theorem eqvGen_effective_columns (t : Table) :
    EqvGen (IdleChange kinds) t { t with columns := t.columns.map (·.effective kinds) } := by
  obtain ⟨name, description, columns⟩ := t
  let change (columns columns' : List Column) : Prop :=
    IdleChange kinds ⟨name, description, columns⟩ ⟨name, description, columns'⟩
  have hcolumns : EqvGen change columns (columns.map (·.effective kinds)) :=
    eqvGen_map Column.eqvGen_effective
      (fun before after _ _ h => .column name description before after h) [] columns
  exact eqvGen_image (Table.mk name description) (fun _ _ h => h) hcolumns

theorem eqvGen_effective (t : Table) : EqvGen (IdleChange kinds) t (t.effective kinds) :=
  .trans _ _ _ (eqvGen_effective_description t) (eqvGen_effective_columns _)

end Table

/-- Two models differ in idle entries only if and only if their effective models are the same. -/
theorem sameMeaning_iff {tables tables' : List Table} :
    SameMeaning kinds tables tables' ↔
      tables.map (·.effective kinds) = tables'.map (·.effective kinds) := by
  refine ⟨SameMeaning.effective_eq, fun h => ?_⟩
  have hreached (tables : List Table) :
      SameMeaning kinds tables (tables.map (·.effective kinds)) :=
    eqvGen_map Table.eqvGen_effective (fun before after _ _ h => .table before after h) [] tables
  exact .trans _ _ _ (hreached tables) (h ▸ .symm _ _ (hreached tables'))

end Reached
end SchemaScript
