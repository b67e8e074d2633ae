import Mathlib.Data.List.Induction
import SchemaScript.Proofs.Review.Tables

/-!
# SchemaScript.Proofs.Model.Steps

Columns that are built step by step. After a run of steps each field holds what the last step on it
gave, whatever steps on other fields are in between (`built_eq`). A step that points a column at
another one sets the flag and the reference at once, so the two go together after every run, and no
column that is built like this is ever at odds with itself (`built_consistent`).
-/

namespace SchemaScript

/-- The last one of the values that the steps give. -/
def lastGiven {κ α : Type} (value? : κ → Option α) (steps : List κ) : Option α :=
  (steps.filterMap value?).getLast?

theorem lastGiven_concat {κ α : Type} (value? : κ → Option α) (steps : List κ) (k : κ) :
    lastGiven value? (steps ++ [k]) = (value? k).or (lastGiven value? steps) := by
  have hlast : lastGiven value? [k] = value? k := by
    rw [lastGiven, List.filterMap_cons]
    cases value? k <;> rfl
  rw [← hlast, lastGiven, List.filterMap_append, List.getLast?_append]
  rfl

namespace Column

/-- A step of building a column. -/
inductive Step where
  | primaryKey
  | unique
  | nullable (b : Bool)
  | withDefault (value : String)
  | references (table column : String) (kind : Cardinality)

def step (c : Column) : Step → Column
  | .primaryKey => c.primaryKey
  | .unique => c.unique
  | .nullable b => c.nullable b
  | .withDefault value => c.withDefault value
  | .references table column kind => c.references table column kind

/-- A column with nothing but its name, and with a type if a token is given. -/
def start (name : String) : Option String → Column
  | some token => typed name token
  | none => untyped name

def built (name : String) (token : Option String) (steps : List Step) : Column :=
  steps.foldl step (start name token)

def IsBuilt (c : Column) : Prop :=
  ∃ name token steps, c = built name token steps

/-! ## What steps give -/

namespace Step

def primaryKey? : Step → Option Bool
  | .primaryKey => some true
  | _ => none

def unique? : Step → Option Bool
  | .unique => some true
  | _ => none

def nullable? : Step → Option Bool
  | .nullable b => some b
  | _ => none

def default? : Step → Option String
  | .withDefault value => some value
  | _ => none

def target? : Step → Option Reference
  | .references table column kind => some ⟨table, column, kind⟩
  | _ => none

end Step

/-- The last steps on each field are the same. -/
structure SameLast (steps steps' : List Step) : Prop where
  primaryKey : lastGiven Step.primaryKey? steps = lastGiven Step.primaryKey? steps'
  unique : lastGiven Step.unique? steps = lastGiven Step.unique? steps'
  nullable : lastGiven Step.nullable? steps = lastGiven Step.nullable? steps'
  default : lastGiven Step.default? steps = lastGiven Step.default? steps'
  target : lastGiven Step.target? steps = lastGiven Step.target? steps'

/-- The column as the last steps on its fields leave it: a field that no step is about stays as it
was at the start. -/
def asLeft (name : String) (token : Option String) (steps : List Step) : Column :=
  let c := start name token
  { name := c.name
    dataType := c.dataType
    isPrimaryKey := (lastGiven Step.primaryKey? steps).getD c.isPrimaryKey
    isForeignKey := (lastGiven Step.target? steps).isSome || c.isForeignKey
    isNullable := (lastGiven Step.nullable? steps).or c.isNullable
    isUnique := (lastGiven Step.unique? steps).getD c.isUnique
    defaultValue := (lastGiven Step.default? steps).or c.defaultValue
    reference := (lastGiven Step.target? steps).or c.reference }

/-! ## Runs -/

section Runs

variable {name : String} {token : Option String} {steps steps' : List Step}

/-- A step sets the fields that it is about and leaves the others alone. -/
theorem step_asLeft (k : Step) :
    (asLeft name token steps).step k = asLeft name token (steps ++ [k]) := by
  simp only [asLeft, lastGiven_concat]
  cases k <;> rfl

theorem built_eq : built name token steps = asLeft name token steps := by
  induction steps using List.reverseRecOn with
  | nil => rfl
  | append_singleton steps k ih =>
    rw [← step_asLeft, ← ih, built, built, List.foldl_append, List.foldl_cons, List.foldl_nil]

theorem asLeft_congr (h : SameLast steps steps') :
    asLeft name token steps = asLeft name token steps' := by
  rw [asLeft, h.primaryKey, h.unique, h.nullable, h.default, h.target, ← asLeft]

/-- The flag and the reference come from the same steps. -/
theorem isForeignKey_built :
    (built name token steps).isForeignKey = (built name token steps).reference.isSome := by
  have hstart : (start name token).isForeignKey = (start name token).reference.isSome := by
    cases token <;> rfl
  rw [built_eq, asLeft, Option.isSome_or, hstart]

end Runs

theorem foreignKey?_eq_reference {c : Column} (h : c.isForeignKey = c.reference.isSome) :
    c.foreignKey? = c.reference := by
  rw [foreignKey?, h]
  cases c.reference <;> rfl

/-- Columns that are built step by step are consistent. Such a column is flagged as a foreign key
if and only if it has a reference, which is then its target; its name and its type are those it was
made with; and each other field holds what the last step on it gave, or what it held at the start.
So runs with the same last steps lead to the same column, in whatever order their steps stand, and
a table of such columns has no key that is at odds with its reference. -/
theorem built_consistent :
    (∀ (name : String) (token : Option String) (steps : List Step),
      let c := built name token steps
      (c.isForeignKey = true ↔ c.reference.isSome = true) ∧
      c.foreignKey? = c.reference ∧
      c.name = name ∧ c.dataType = (start name token).dataType ∧
      c = asLeft name token steps ∧
      ∀ steps', SameLast steps steps' → built name token steps' = c) ∧
    ∀ t : Table, (∀ c ∈ t.columns, c.IsBuilt) → Review.keyMismatches t = [] := by
  refine ⟨fun name token steps => ?_, fun t ht => Review.keyMismatches_eq_nil.mpr fun c hc => ?_⟩
  · have hkey : (built name token steps).isForeignKey =
        (built name token steps).reference.isSome := isForeignKey_built
    have hname : (asLeft name token steps).name = name := by cases token <;> rfl
    refine ⟨Bool.eq_iff_iff.mp hkey, foreignKey?_eq_reference hkey, by rw [built_eq, hname],
      by rw [built_eq, asLeft], built_eq, fun steps' h => ?_⟩
    rw [built_eq, built_eq, asLeft_congr h]
  · obtain ⟨name, token, steps, rfl⟩ := ht c hc
    exact isForeignKey_built

/-- Steps in two orders; what comes before the last step on a field is lost. -/
def ownerSteps : List Step :=
  [.references "team" "id" .oneToOne, .nullable true, .withDefault "1",
    .references "user" "id" .manyToOne, .nullable false]

def ownerSteps' : List Step :=
  [.nullable false, .withDefault "0", .references "user" "id" .manyToOne, .withDefault "1"]

theorem built_consistent_ownerSteps :
    let owner := built "owner" (some "int") ownerSteps
    let team := Table.withColumns "team" [built "id" none [.unique, .primaryKey], owner]
    owner.foreignKey? = some ⟨"user", "id", .manyToOne⟩ ∧ owner.isNullable = some false ∧
    SameLast ownerSteps ownerSteps' ∧ built "owner" (some "int") ownerSteps' = owner ∧
    (∀ c ∈ team.columns, c.IsBuilt) ∧ Review.keyMismatches team = [] := by
  intro owner team
  obtain ⟨hbuilt, htable⟩ := built_consistent
  obtain ⟨-, htarget, -, -, hleft, hsame⟩ := hbuilt "owner" (some "int") ownerSteps
  have hlast : SameLast ownerSteps ownerSteps' := ⟨rfl, rfl, rfl, rfl, rfl⟩
  have hteam : ∀ c ∈ team.columns, c.IsBuilt := by
    intro c hc
    rcases List.mem_pair.mp hc with rfl | rfl
    · exact ⟨_, _, _, rfl⟩
    · exact ⟨_, _, _, rfl⟩
  have hreference : owner.reference = some ⟨"user", "id", .manyToOne⟩ := congrArg reference hleft
  have hnullable : owner.isNullable = some false := congrArg isNullable hleft
  exact ⟨htarget.trans hreference, hnullable, hlast, hsame _ hlast, hteam, htable team hteam⟩

end Column
end SchemaScript
