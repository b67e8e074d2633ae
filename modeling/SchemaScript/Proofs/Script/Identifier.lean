import Mathlib.Data.List.Basic
import SchemaScript.Proofs.Script.Integrity
import SchemaScript.Proofs.Script.Quotation

/-!
# SchemaScript.Proofs.Script.Identifier

A reader of the identifiers that stand at fixed places of a text, each behind words that do not
change. What is read is the name as the dialect stores it.

* `readIdentifiers_quote`: behind its words, a quoted name is read as the folded name.
* `namesBehind_eq`: names are read from the statements of one sort only.
* `tableNames_eq`, `constraintNames_eq`: the names that the statements of a script give to tables
  and to constraints.
* `lineNames_eq`: the names that the lines of a table give to its columns.
-/

namespace SchemaScript

/-- The identifiers of a text that follow one after the other, each behind the given words. -/
def readIdentifiers (p : Profile) : List String → List Char → Option (List String)
  | [], _ => some []
  | words :: later, cs =>
    match cs.dropPrefix? (words.toList ++ [p.openQuote]) with
    | none => none
    | some inner =>
      match readQuoted p.closeQuote inner with
      | none => none
      | some (name, rest) => (readIdentifiers p later rest).map (String.ofList name :: ·)

/-- A text with the given names in quotes, each behind its words. -/
def withNames (p : Profile) : List String → List String → List Char → List Char
  | words :: later, name :: names, rest =>
    words.toList ++ ((p.quote name).toList ++ withNames p later names rest)
  | _, _, rest => rest

/-- The last of these identifiers. -/
def nameBehind? (p : Profile) (words : List String) (text : String) : Option String :=
  (readIdentifiers p words text.toList).bind (·.getLast?)

/-- The names that the lines of a table begin with. -/
def Profile.lineNames (p : Profile) (t : Table) : List String :=
  (p.columnLines t).filterMap (nameBehind? p [""])

namespace Scope

/-- The names that statements of the script have behind the given words. -/
def namesBehind (s : Scope) (p : Profile) (words : List String) : List String :=
  (s.statements p).filterMap fun st => nameBehind? p words (st.readText p s)

/-- The names of the tables that the script makes. -/
def tableNames (s : Scope) (p : Profile) : List String :=
  s.namesBehind p ["CREATE TABLE "]

/-- The names of the constraints that the script adds to tables. -/
def constraintNames (s : Scope) (p : Profile) : List String :=
  s.namesBehind p ["ALTER TABLE ", " ADD CONSTRAINT "]

/-- The constraints that the script adds to tables. -/
def constraints (s : Scope) (p : Profile) : List Constraint :=
  s.tables.flatMap (p.deferredConstraints s)

end Scope

theorem Profile.fold_eq {p : Profile} (hp : p ∈ Profile.all) (name : String) :
    p.fold name = if p.dialect = .oracle then Text.upper name else name := by
  simp only [Profile.all, List.mem_cons, List.not_mem_nil, or_false] at hp
  rcases hp with rfl | rfl | rfl | rfl | rfl <;> rfl

/-! ## Reading -/

section Reading

variable {p : Profile} {s : Scope}

theorem readIdentifiers_quote (words : String) (later : List String) (name : String)
    {rest : List Char} (h : rest.head? ≠ some p.closeQuote) :
    readIdentifiers p (words :: later) (words.toList ++ ((p.quote name).toList ++ rest)) =
      (readIdentifiers p later rest).map (p.fold name :: ·) := by
  have hdrop : (words.toList ++ ((p.quote name).toList ++ rest)).dropPrefix?
      (words.toList ++ [p.openQuote]) =
        some (Profile.double p.closeQuote (p.fold name).toList ++ p.closeQuote :: rest) := by
    rw [List.dropPrefix?_eq_some_iff]
    refine ⟨words.toList ++ [p.openQuote], ?_, beq_self_eq_true _⟩
    simp [Profile.quote]
  have hquoted : readQuoted p.closeQuote
      (Profile.double p.closeQuote (p.fold name).toList ++ p.closeQuote :: rest) =
        some ((p.fold name).toList, rest) := readQuoted_double _ h
  simp only [readIdentifiers, hdrop, hquoted, String.ofList_toList]

/-- A quotation in front of the words ends there. -/
def IsBetween (p : Profile) (words : String) : Prop :=
  words.toList ≠ [] ∧ words.toList.head? ≠ some p.closeQuote

instance (p : Profile) : DecidablePred (IsBetween p) :=
  fun words => inferInstanceAs (Decidable (words.toList ≠ [] ∧ _ ≠ some p.closeQuote))

theorem IsBetween.head?_ne {words : String} (h : IsBetween p words) (rest : List Char) :
    (words.toList ++ rest).head? ≠ some p.closeQuote := by
  obtain ⟨hne, hhead⟩ := h
  obtain ⟨c, cs, hwords⟩ := List.exists_cons_of_ne_nil hne
  rw [hwords] at hhead ⊢
  exact hhead

theorem readIdentifiers_withNames (words names : List String)
    (hlength : words.length = names.length) (hwords : ∀ w ∈ words, IsBetween p w)
    {rest : List Char} (hrest : rest.head? ≠ some p.closeQuote) :
    readIdentifiers p words (withNames p words names rest) = some (names.map p.fold) := by
  induction words generalizing names with
  | nil =>
    rw [List.length_nil, eq_comm, List.length_eq_zero_iff] at hlength
    subst hlength
    rfl
  | cons word words ih =>
    obtain ⟨name, names, rfl⟩ := List.exists_cons_of_length_eq_add_one hlength.symm
    have hlater := ih names (Nat.succ.inj hlength) fun w hw => hwords w (by simp [hw])
    have happart : (withNames p words names rest).head? ≠ some p.closeQuote := by
      match words, names with
      | [], _ => exact hrest
      | _ :: _, [] => exact hrest
      | word' :: words, name' :: names => exact (hwords word' (by simp)).head?_ne _
    rw [withNames, readIdentifiers_quote word words name happart, hlater]
    rfl

theorem readIdentifiers_eq_none {words : String} (later : List String) {cs : List Char}
    (h : ¬ words.toList <+: cs) : readIdentifiers p (words :: later) cs = none := by
  have hdrop : cs.dropPrefix? (words.toList ++ [p.openQuote]) = none := by
    rw [Option.eq_none_iff_forall_ne_some]
    intro inner hinner
    obtain ⟨start, rfl, hstart⟩ := List.dropPrefix?_eq_some_iff.mp hinner
    rw [eq_of_beq hstart, List.append_assoc] at h
    exact h (List.prefix_append _ _)
  simp only [readIdentifiers, hdrop]

theorem nameBehind?_tableText (hp : p.IsReadable) (t : Table) :
    nameBehind? p ["CREATE TABLE "] (Statement.tableText p s t) = some (p.fold t.name) := by
  have happart : Apart p (tableRest p s t ++ [';']) :=
    (apart_tableRest hp s t).append (apart_semicolon hp [])
  have hread := readIdentifiers_quote "CREATE TABLE " [] t.name (happart .identifier)
  rw [nameBehind?, toList_tableText, List.append_assoc, List.append_assoc, hread]
  rfl

theorem nameBehind?_statement (hp : p ∈ Profile.all) (k : Constraint) :
    nameBehind? p ["ALTER TABLE ", " ADD CONSTRAINT "] (k.statement p) =
      some (p.fold k.name) := by
  have htext : (k.statement p).toList =
      withNames p ["ALTER TABLE ", " ADD CONSTRAINT "] [k.table, k.name]
        (" ".toList ++ ((k.clause p).toList ++ [';'])) := by
    rw [toList_statement]
    simp only [withNames, List.append_assoc]
  have hwords : ∀ q ∈ Profile.all, ∀ w ∈ ["ALTER TABLE ", " ADD CONSTRAINT ", " "],
      IsBetween q w := by decide
  have hread := readIdentifiers_withNames ["ALTER TABLE ", " ADD CONSTRAINT "] [k.table, k.name]
    rfl (fun w hw => hwords p hp w (List.mem_append_left [" "] hw))
    ((hwords p hp " " (by simp)).head?_ne ((k.clause p).toList ++ [';']))
  rw [nameBehind?, htext, hread]
  rfl

theorem nameBehind?_lineText (hp : p.IsReadable) (t : Table) (c : Column) :
    nameBehind? p [""] (p.lineText (p.tableSegments t c)) = some (p.fold c.name) := by
  obtain ⟨later, hline⟩ := p.exists_toList_lineText t c
  have hapart : Apart p (later.flatMap (" ".toList ++ ·)) := by
    cases later with
    | nil => exact apart_nil
    | cons text later => exact apart_of_ordinary hp (c := ' ') (by decide) _
  have hread := readIdentifiers_quote "" [] c.name (hapart .identifier)
  rw [String.toList_empty, List.nil_append] at hread
  rw [nameBehind?, hline, hread]
  rfl

theorem lineNames_eq (hp : p.IsReadable) (t : Table) :
    p.lineNames t = t.columns.map fun c => p.fold c.name := by
  rw [Profile.lineNames, Profile.columnLines, List.filterMap_map]
  simp only [Function.comp_def, nameBehind?_lineText hp, List.filterMap_eq_map']

end Reading

/-! ## Names in a script -/

namespace Statement

/-- The words that a statement begins with. -/
def opening : Statement → String
  | .header text => text
  | .createTable _ => "CREATE TABLE "
  | .createSequence _ _ => "CREATE SEQUENCE "
  | .createTrigger _ _ => "CREATE OR REPLACE TRIGGER "
  | .addConstraint _ => "ALTER TABLE "

def createdTable? : Statement → Option Table
  | .createTable t => some t
  | _ => none

def addedConstraint? : Statement → Option Constraint
  | .addConstraint k => some k
  | _ => none

theorem opening_prefix (p : Profile) (s : Scope) (st : Statement) :
    st.opening.toList <+: (st.readText p s).toList := by
  cases st with
  | header text => exact List.prefix_refl _
  | createTable t =>
    rw [readText, toList_tableText, List.append_assoc]
    exact List.prefix_append _ _
  | createSequence t c =>
    unfold readText text createSequenceText
    simp only [String.toList_append, List.append_assoc]
    exact List.prefix_append _ _
  | createTrigger t c =>
    unfold readText text createTriggerText
    simp only [String.toList_append, List.append_assoc]
    exact List.prefix_append _ _
  | addConstraint k =>
    rw [readText, text, toList_statement]
    · simp only [List.append_assoc]
      exact List.prefix_append _ _
    · intro t ht
      cases ht

/-- Names are read only behind the words that the statement begins with. -/
theorem nameBehind?_other {p : Profile} {s : Scope} {st : Statement} (opening : String)
    (hst : st.opening = opening) {words : String} (later : List String)
    (h : ¬ words.toList <+: opening.toList ∧ ¬ opening.toList <+: words.toList) :
    nameBehind? p (words :: later) (st.readText p s) = none := by
  rw [nameBehind?, readIdentifiers_eq_none, Option.bind_none]
  intro hwords
  rcases List.prefix_or_prefix_of_prefix hwords (st.opening_prefix p s) with hprefix | hprefix
  · exact h.1 (hst ▸ hprefix)
  · exact h.2 (hst ▸ hprefix)

end Statement

section Scripts

variable {p : Profile} {s : Scope}

theorem filterMap_statements {α : Type} (f : Statement → Option α) :
    (s.statements p).filterMap f =
      p.headerStatements.filterMap (fun text => f (.header text)) ++
      s.tables.filterMap (fun t => f (.createTable t)) ++
      (s.sequenceColumns p).filterMap (fun n => f (.createSequence n.1 n.2)) ++
      (s.sequenceColumns p).filterMap (fun n => f (.createTrigger n.1 n.2)) ++
      (s.constraints p).filterMap (fun k => f (.addConstraint k)) := by
  rw [Scope.statements_eq, Scope.definitions, Scope.constraints]
  simp only [List.filterMap_append, List.filterMap_map, Function.comp_def]

theorem opening_of_header_mem (hp : p ∈ Profile.all) {header : String}
    (h : .header header ∈ s.statements p) :
    (Statement.header header).opening = "PRAGMA foreign_keys = ON;" := by
  have hheader : header ∈ p.headerStatements := by
    simpa [Scope.statements_eq, Scope.definitions] using h
  simp only [Profile.all, List.mem_cons, List.not_mem_nil, or_false] at hp
  rcases hp with rfl | rfl | rfl | rfl | rfl
  · cases hheader
  · cases hheader
  · exact List.mem_singleton.mp hheader
  · cases hheader
  · cases hheader

/-- The words that the statements of a script begin with; headers come first. -/
def openings : List String :=
  ["PRAGMA foreign_keys = ON;", "CREATE TABLE ", "CREATE SEQUENCE ", "CREATE OR REPLACE TRIGGER ",
    "ALTER TABLE "]

theorem opening_mem (hp : p ∈ Profile.all) {st : Statement} (h : st ∈ s.statements p) :
    st.opening ∈ openings := by
  cases st with
  | header text =>
    rw [opening_of_header_mem hp h]
    decide
  | createTable | createSequence | createTrigger | addConstraint =>
    simp [Statement.opening, openings]

/-- Names are read from the statements of one sort, those that begin with the words in front of the
names. -/
theorem namesBehind_eq {α : Type} (hp : p ∈ Profile.all) {sort : Statement → Option α}
    {name : α → String} {words : String} {later : List String} (hwords : words ∈ openings.tail)
    (hread : ∀ st a, sort st = some a →
      nameBehind? p (words :: later) (st.readText p s) = some (name a))
    (hother : ∀ st, sort st = none → (∃ text, st = .header text) ∨ st.opening ≠ words) :
    s.namesBehind p (words :: later) = ((s.statements p).filterMap sort).map name := by
  have hfree : ∀ v ∈ openings, ∀ w ∈ openings, v ≠ w → ¬ v.toList <+: w.toList := by decide
  have hheader : ∀ w ∈ openings.tail, "PRAGMA foreign_keys = ON;" ≠ w := by decide
  have hnames : ∀ st ∈ s.statements p, nameBehind? p (words :: later) (st.readText p s) =
      (sort st).map name := by
    intro st hst
    cases hsort : sort st with
    | some a => exact hread st a hsort
    | none =>
      have hne : st.opening ≠ words := by
        rcases hother st hsort with ⟨text, rfl⟩ | hne
        · rw [opening_of_header_mem hp hst]
          exact hheader words hwords
        · exact hne
      have hmem := opening_mem hp hst
      have hword := List.mem_of_mem_tail hwords
      exact Statement.nameBehind?_other _ rfl _
        ⟨hfree _ hword _ hmem hne.symm, hfree _ hmem _ hword hne⟩
  rw [Scope.namesBehind, List.filterMap_congr hnames, List.map_filterMap]

theorem tableNames_eq (hp : p ∈ Profile.all) :
    s.tableNames p = s.tables.map fun t => p.fold t.name := by
  have hread : ∀ st t, Statement.createdTable? st = some t →
      nameBehind? p ["CREATE TABLE "] (st.readText p s) = some (p.fold t.name) := by
    intro st t ht
    cases st <;> cases ht
    exact nameBehind?_tableText (isReadable_of_mem hp) t
  rw [Scope.tableNames, namesBehind_eq hp (by decide) hread, filterMap_statements]
  · simp [Statement.createdTable?]
  · intro st
    cases st <;> simp [Statement.createdTable?, Statement.opening]

theorem constraintNames_eq (hp : p ∈ Profile.all) :
    s.constraintNames p = (s.constraints p).map fun k => p.fold k.name := by
  have hread : ∀ st k, Statement.addedConstraint? st = some k →
      nameBehind? p ["ALTER TABLE ", " ADD CONSTRAINT "] (st.readText p s) =
        some (p.fold k.name) := by
    intro st k hk
    cases st <;> cases hk
    exact nameBehind?_statement hp k
  rw [Scope.constraintNames, namesBehind_eq hp (by decide) hread, filterMap_statements]
  · simp [Statement.addedConstraint?]
  · intro st
    cases st <;> simp [Statement.addedConstraint?, Statement.opening]

end Scripts

end SchemaScript
