import SchemaScript.Proofs.Script.PrimaryKey

/-!
# SchemaScript.Proofs.Script.Unique

A unique column outside of the key is declared as unique once, on its line or by a statement, and no
other column is (`unique_declared_once`).

Marks on lines are read from the texts of the lines. Nothing else on a line depends on the flag of
its column (`exists_segments_unique`), so that the mark has a place of its own in the text.
-/

namespace SchemaScript

/-- What declares that a column is unique: a segment of a line, the lines counted from zero, or a
statement. -/
inductive UniqueMark where
  | segment (line : Nat)
  | statement (text : String)
deriving DecidableEq, Repr

/-- How a column is declared as unique by a statement. -/
def uniqueText (p : Profile) (t : Table) (c : Column) : String :=
  let clause := "UNIQUE (" ++ p.quote c.name ++ ")"
  "ALTER TABLE " ++ p.quote t.name ++ " ADD CONSTRAINT " ++
    p.quote ("UK_" ++ t.name ++ "_" ++ c.name) ++ " " ++ clause ++ ";"

/-- The columns that are unique and not part of the key, with their places in the table. -/
def Table.uniqueColumns (t : Table) : List (Column × Nat) :=
  t.columns.zipIdx.filter fun e => e.1.isUnique && !e.1.isPrimaryKey

namespace Profile

/-- All that a table declares as unique: the marks on its lines, then the statements. -/
def uniqueMarks (p : Profile) (t : Table) : List UniqueMark :=
  ((p.markedLines t).zipIdx.flatMap fun e =>
    (e.1.2.filter (· = "UNIQUE")).map fun _ => .segment e.2) ++
  (p.deferredUniques t).map fun k => .statement (k.statement p)

/-- Whether the line of a column says that it is unique. -/
def marksUnique (p : Profile) (c : Column) : Bool :=
  p.inlineKeys && c.isUnique && !c.isPrimaryKey

section Lines

variable (p : Profile) (soleKey : Bool) (t : Table) (c : Column)

/-- The flag of a column adds one segment to its line or none, and all others stay as they are. -/
theorem exists_segments_unique :
    ∃ front back : List Segment, ∀ flag : Bool, p.segments soleKey { c with isUnique := flag } =
      .identifier c.name :: (front ++
        ((if p.marksUnique { c with isUnique := flag } then [.unique] else []) ++ back)) := by
  let types := (c.dataType.map fun token => Segment.nativeType (p.dialect.convertType token)).toList
  let keys : List Segment := if p.inlineKeys && soleKey then [.primaryKey] else []
  let later : List Segment :=
    (if c.isRequired then [.notNull] else if p.explicitNull then [.null] else []) ++
      (c.givenDefault?.map Segment.default).toList
  refine ⟨types ++ (p.numberingSegments soleKey c ++ keys), later, fun flag => ?_⟩
  rw [segments_eq, markSegments]
  simp only [List.append_assoc]
  rfl

/-- The word for the flag has a place of its own in the text of the line. -/
theorem exists_lineText_unique :
    ∃ front back : String, ∀ flag : Bool,
      p.lineText (p.tableSegments t { c with isUnique := flag }) =
        front ++ (if p.marksUnique { c with isUnique := flag } then " UNIQUE" else "") ++ back := by
  obtain ⟨front, back, hsegments⟩ :=
    p.exists_segments_unique (!t.hasCompositeKey && c.isPrimaryKey) c
  refine ⟨String.ofList ((p.quote c.name).toList ++ p.spacedText front),
    String.ofList (p.spacedText back), fun flag => ?_⟩
  have hline : p.tableSegments t { c with isUnique := flag } = _ := hsegments flag
  rw [← String.toList_inj, hline, toList_lineText, spacedText_append, spacedText_append]
  cases p.marksUnique { c with isUnique := flag } <;> simp [spacedText, Segment.text]

end Lines

theorem unique_mem_marks_iff {p : Profile} (hp : p ∈ Profile.all) (soleKey : Bool) (c : Column) :
    "UNIQUE" ∈ p.marks soleKey c ↔ p.marksUnique c = true := by
  rw [unique_mem_marks hp]
  simp [marksUnique, and_assoc]

/-- The marks on the lines are those of the columns that mark themselves. -/
theorem flatMap_markedLines_unique {p : Profile} (hp : p ∈ Profile.all) (t : Table) :
    ((p.markedLines t).zipIdx.flatMap fun e =>
      (e.1.2.filter (· = "UNIQUE")).map fun _ => UniqueMark.segment e.2) =
        (t.columns.zipIdx.filter fun e => p.marksUnique e.1).map fun e => .segment e.2 := by
  rw [markedLines_eq hp, List.zipIdx_map, List.flatMap_map]
  simp only [Prod.map_fst, Prod.map_snd, id_eq, filter_marks hp]
  induction t.columns.zipIdx with
  | nil => rfl
  | cons e lines ih =>
    rw [List.flatMap_cons, ih, List.filter_cons]
    simp only [unique_mem_marks_iff hp]
    cases p.marksUnique e.1 <;> simp

/-- The statements are about the same columns, where the dialect declares keys by statements. -/
theorem map_statement_deferredUniques (p : Profile) (t : Table) :
    (p.deferredUniques t).map (·.statement p) =
      if p.keyPlacement = .alterTable then t.uniqueColumns.map fun e => uniqueText p t e.1
      else [] := by
  have hcolumns : (t.columns.filter fun c => c.isUnique && !c.isPrimaryKey) =
      t.uniqueColumns.map Prod.fst := by
    have hfilter := List.filter_map (l := t.columns.zipIdx) (f := Prod.fst)
      (p := fun c : Column => c.isUnique && !c.isPrimaryKey)
    rwa [List.zipIdx_map_fst] at hfilter
  have htext (c : Column) :
      (Constraint.unique t.name c.name).statement p = uniqueText p t c := by
    unfold Constraint.statement uniqueText
    rw [Constraint.clause_unique]
    rfl
  unfold deferredUniques Table.uniqueConstraints
  split
  · rw [hcolumns, List.map_map, List.map_map]
    exact List.map_congr_left fun e _ => htext e.1
  · rfl

end Profile

/-- The marks of a table are those of its unique columns outside of the key, one for each and in
their order: a segment of the own line where keys stand on lines, and a statement that names the
table and the column elsewhere. In the text of a line, the segment is the word that the flag of the
column adds. -/
theorem unique_declared_once {p : Profile} (hp : p ∈ Profile.all) (t : Table) :
    p.uniqueMarks t = t.uniqueColumns.map (fun e =>
      if p.keyPlacement = .column then .segment e.2 else .statement (uniqueText p t e.1)) ∧
    ∀ c : Column, ∃ front back : String, ∀ flag : Bool,
      p.lineText (p.tableSegments t { c with isUnique := flag }) = front ++
        (if p.keyPlacement = .column ∧ flag = true ∧ c.isPrimaryKey = false then " UNIQUE" else "")
          ++ back := by
  constructor
  · have hstatements := p.map_statement_deferredUniques t
    have hmarks : p.uniqueMarks t =
        ((t.columns.zipIdx.filter fun e => p.marksUnique e.1).map fun e => .segment e.2) ++
          ((p.deferredUniques t).map (·.statement p)).map .statement := by
      rw [Profile.uniqueMarks, Profile.flatMap_markedLines_unique hp, List.map_map]
      rfl
    rw [hmarks, hstatements]
    rcases keyPlacement_of_mem hp with h | h
    · have hinline : p.inlineKeys = true := by simp [Profile.inlineKeys, h]
      simp [h, Profile.marksUnique, hinline, Table.uniqueColumns]
    · have hinline : p.inlineKeys = false := by simp [Profile.inlineKeys, h]
      have hnone : (t.columns.zipIdx.filter fun e => p.marksUnique e.1) = [] :=
        List.filter_eq_nil_iff.mpr fun e _ => by simp [Profile.marksUnique, hinline]
      simp [h, hnone]
  · intro c
    obtain ⟨front, back, htext⟩ := p.exists_lineText_unique t c
    refine ⟨front, back, fun flag => ?_⟩
    rw [htext flag]
    simp [Profile.marksUnique, Profile.inlineKeys, and_assoc]

/-- A key that is flagged as unique too, and columns with the flag around one without it. -/
def accountTable : Table :=
  let column (name : String) (key unique : Bool) : Column :=
    ⟨name, none, key, false, none, unique, none, none⟩
  .withColumns "account" [column "id" true true, column "mail" false true,
    column "note" false false, column "phone" false true]

theorem unique_declared_once_accountTable :
    let p := Profile.sqlServer
    p ∈ Profile.all ∧
    p.uniqueMarks accountTable =
      [.statement "ALTER TABLE [account] ADD CONSTRAINT [UK_account_mail] UNIQUE ([mail]);",
        .statement "ALTER TABLE [account] ADD CONSTRAINT [UK_account_phone] UNIQUE ([phone]);"] ∧
    ∀ c : Column, ∃ front back : String, ∀ flag : Bool,
      p.lineText (p.tableSegments accountTable { c with isUnique := flag }) = front ++
        (if p.keyPlacement = .column ∧ flag = true ∧ c.isPrimaryKey = false then " UNIQUE" else "")
          ++ back := by
  intro p
  have hp : p ∈ Profile.all := by decide
  obtain ⟨hmarks, htext⟩ := unique_declared_once hp accountTable
  exact ⟨hp, hmarks.trans (by decide), htext⟩

end SchemaScript
