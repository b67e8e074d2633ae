import Mathlib.Data.List.Basic
import SchemaScript.Proofs.Script.Segment

/-!
# SchemaScript.Proofs.Script.LineMark

What the line of a column says about it, read from the text of the line.

`Profile.lineMarks?` reads a line without a look at its segments: it takes off the name and the type
of the column, reads marks as long as there are any, and accepts nothing behind them but a default.
`markedLines_eq` tells the marks on all lines of a table. No mark is the beginning of another one,
so that each is read as what it is (`readMark_append`).
-/

namespace SchemaScript

/-- The keywords for numbering, of all dialects. -/
def numberingWords : List String :=
  ["AUTO_INCREMENT", "AUTOINCREMENT", "IDENTITY(1,1)"]

def markWords : List String :=
  numberingWords ++ ["PRIMARY KEY", "UNIQUE", "NOT NULL", "NULL"]

/-- The mark at the beginning of a text, with a blank in front of it, and the text behind it. -/
def readMark (cs : List Char) : Option (String × List Char) :=
  markWords.findSome? fun word => (cs.dropPrefix? (' ' :: word.toList)).map fun rest => (word, rest)

/-- The marks at the beginning of a text, of which there are no more than the given number, and the
text behind them. -/
def readMarks : Nat → List Char → List String × List Char
  | 0, cs => ([], cs)
  | steps + 1, cs =>
    match readMark cs with
    | none => ([], cs)
    | some (word, rest) =>
      let (words, rest) := readMarks steps rest
      (word :: words, rest)

namespace Profile

/-- The type of a column with a blank in front of it, if it has text. -/
def typeText (p : Profile) (c : Column) : String :=
  match c.dataType with
  | none => ""
  | some token =>
    if p.dialect.convertType token = "" then "" else " " ++ p.dialect.convertType token

/-- The marks on a line that starts with the name and the type of the column and has nothing behind
its marks but a default. -/
def lineMarks? (p : Profile) (c : Column) (line : String) : Option (List String) :=
  match line.toList.dropPrefix? (p.quote c.name ++ p.typeText c).toList with
  | none => none
  | some later =>
    let (words, rest) := readMarks later.length later
    if rest = [] ∨ " DEFAULT ".toList.isPrefixOf rest then some words else none

/-- The columns of a table with the marks on their lines. -/
def markedLines (p : Profile) (t : Table) : List (Column × List String) :=
  (t.columns.zip (p.columnLines t)).filterMap fun e =>
    (p.lineMarks? e.1 e.2).map fun words => (e.1, words)

/-- The columns whose line has the mark, as often as it has it. -/
def columnsWith (p : Profile) (t : Table) (word : String) : List Column :=
  (p.markedLines t).flatMap fun e => (e.2.filter (· = word)).map fun _ => e.1

end Profile

def Numbering.keyword? : Numbering → Option String
  | .inline keyword => some keyword
  | _ => Option.none

/-! ## Reading -/

/-- No mark is the beginning of another one. -/
theorem eq_of_prefix_append {v w : String} (hv : v ∈ markWords) (hw : w ∈ markWords)
    {rest : List Char} (h : v.toList <+: w.toList ++ rest) : v = w := by
  have hfree : ∀ v ∈ markWords, ∀ w ∈ markWords, v.toList <+: w.toList → v = w := by decide
  rcases List.prefix_or_prefix_of_prefix h (List.prefix_append _ rest) with hprefix | hprefix
  · exact hfree v hv w hw hprefix
  · exact (hfree w hw v hv hprefix).symm

theorem readMark_append {word : String} (h : word ∈ markWords) (rest : List Char) :
    readMark (' ' :: (word.toList ++ rest)) = some (word, rest) := by
  have hself : (' ' :: (word.toList ++ rest)).dropPrefix? (' ' :: word.toList) = some rest :=
    List.dropPrefix?_eq_some_iff.mpr ⟨' ' :: word.toList, rfl, beq_self_eq_true _⟩
  cases hread : readMark (' ' :: (word.toList ++ rest)) with
  | none =>
    have hnone := List.findSome?_eq_none_iff.mp hread word h
    rw [hself] at hnone
    cases hnone
  | some mark =>
    obtain ⟨v, hv, hmark⟩ := List.exists_of_findSome?_eq_some hread
    obtain ⟨later, hdrop, rfl⟩ := Option.map_eq_some_iff.mp hmark
    have hprefix : v.toList <+: word.toList ++ rest := by
      obtain ⟨start, htext, hstart⟩ := List.dropPrefix?_eq_some_iff.mp hdrop
      rw [eq_of_beq hstart, List.cons_append] at htext
      exact ⟨later, (List.cons.inj htext).2.symm⟩
    rw [eq_of_prefix_append hv h hprefix, hself] at hdrop
    rw [eq_of_prefix_append hv h hprefix, Option.some.inj hdrop]

/-- By the marks: each is read as itself, and behind the last one there is none. -/
theorem readMarks_append {words : List String} (hwords : ∀ w ∈ words, w ∈ markWords)
    {rest : List Char} (hrest : readMark rest = none) :
    ∀ {steps : Nat}, words.length ≤ steps →
      readMarks steps (words.flatMap (fun word => ' ' :: word.toList) ++ rest) = (words, rest) := by
  induction words with
  | nil =>
    intro steps _
    cases steps with
    | zero => rfl
    | succ steps => simp [readMarks, hrest]
  | cons word words ih =>
    intro steps hsteps
    obtain ⟨steps, rfl⟩ : ∃ n, steps = n + 1 := ⟨steps - 1, by simp at hsteps; omega⟩
    have hlater := ih (fun w hw => hwords w (by simp [hw])) (Nat.le_of_succ_le_succ hsteps)
    have hmark := readMark_append (hwords word (by simp))
      (words.flatMap (fun word => ' ' :: word.toList) ++ rest)
    rw [List.flatMap_cons, List.append_assoc, List.cons_append, readMarks, hmark]
    simp only [hlater]

theorem length_le_length_flatMap (words : List String) :
    words.length ≤ (words.flatMap fun word => ' ' :: word.toList).length := by
  induction words with
  | nil => exact Nat.le_refl 0
  | cons word words ih =>
    rw [List.flatMap_cons, List.length_append, List.length_cons, List.length_cons]
    omega

theorem readMark_default (value : List Char) : readMark (" DEFAULT ".toList ++ value) = none :=
  rfl

/-! ## Lines -/

namespace Profile

/-- The marks of a column; `soleKey` says that it is the only column of its table's key. -/
def marks (p : Profile) (soleKey : Bool) (c : Column) : List String :=
  (if soleKey && c.isIntegerTyped then p.numbering.keyword?.toList else []) ++
  (if p.inlineKeys && soleKey then ["PRIMARY KEY"] else []) ++
  (if p.inlineKeys && c.isUnique && !c.isPrimaryKey then ["UNIQUE"] else []) ++
  (if c.isRequired then ["NOT NULL"] else if p.explicitNull then ["NULL"] else [])

/-- The default of a column, as its line says it. -/
def defaultText (p : Profile) (c : Column) : List Char :=
  match c.givenDefault? with
  | none => []
  | some value => " DEFAULT ".toList ++ (p.defaultLiteral value).toList

variable {p : Profile} {soleKey : Bool} {c : Column}

/-- The marks of a column stand in the order of the list of all marks. -/
theorem marks_sublist (hp : p ∈ Profile.all) (soleKey : Bool) (c : Column) :
    (p.marks soleKey c).Sublist markWords := by
  have hnumbering : ∀ q ∈ Profile.all, q.numbering.keyword?.toList.Sublist numberingWords := by
    decide
  have hite {b : Bool} {words : List String} {all : List String} (h : words.Sublist all) :
      (if b = true then words else []).Sublist all := by
    split
    · exact h
    · exact List.nil_sublist _
  have hwords : markWords =
      numberingWords ++ ["PRIMARY KEY"] ++ ["UNIQUE"] ++ ["NOT NULL", "NULL"] := rfl
  rw [marks, hwords]
  refine (((hite (hnumbering p hp)).append (hite (.refl _))).append (hite (.refl _))).append ?_
  split
  · exact .cons_cons _ (List.nil_sublist _)
  · exact hite (.cons _ (.refl _))

/-- A line has a mark at most once. -/
theorem nodup_marks (hp : p ∈ Profile.all) (soleKey : Bool) (c : Column) :
    (p.marks soleKey c).Nodup := by
  have hall : markWords.Nodup := by decide
  exact hall.sublist (marks_sublist hp soleKey c)

theorem mem_marks {word : String} :
    word ∈ p.marks soleKey c ↔
      (word ∈ p.numbering.keyword? ∧ soleKey = true ∧ c.isIntegerTyped = true) ∨
      (word = "PRIMARY KEY" ∧ p.inlineKeys = true ∧ soleKey = true) ∨
      (word = "UNIQUE" ∧ p.inlineKeys = true ∧ c.isUnique = true ∧ c.isPrimaryKey = false) ∨
      (word = "NOT NULL" ∧ c.isRequired = true) ∨
      (word = "NULL" ∧ c.isRequired = false ∧ p.explicitNull = true) := by
  simp only [marks, List.mem_append, List.mem_ite_nil_right, Bool.and_eq_true, or_assoc]
  cases c.isRequired <;> simp <;> tauto

theorem not_mem_keyword? (hp : p ∈ Profile.all) {word : String} (h : word ∉ numberingWords) :
    word ∉ p.numbering.keyword? := by
  have hkeywords : ∀ q ∈ Profile.all, ∀ keyword ∈ q.numbering.keyword?,
      keyword ∈ numberingWords := by decide
  exact fun hword => h (hkeywords p hp word hword)

theorem primaryKey_mem_marks (hp : p ∈ Profile.all) :
    "PRIMARY KEY" ∈ p.marks soleKey c ↔ p.inlineKeys = true ∧ soleKey = true := by
  have hother := not_mem_keyword? hp (by decide : "PRIMARY KEY" ∉ numberingWords)
  simp [mem_marks, hother]

theorem unique_mem_marks (hp : p ∈ Profile.all) :
    "UNIQUE" ∈ p.marks soleKey c ↔
      p.inlineKeys = true ∧ c.isUnique = true ∧ c.isPrimaryKey = false := by
  have hother := not_mem_keyword? hp (by decide : "UNIQUE" ∉ numberingWords)
  simp [mem_marks, hother]

theorem notNull_mem_marks (hp : p ∈ Profile.all) :
    "NOT NULL" ∈ p.marks soleKey c ↔ c.isRequired = true := by
  have hother := not_mem_keyword? hp (by decide : "NOT NULL" ∉ numberingWords)
  simp [mem_marks, hother]

theorem null_mem_marks (hp : p ∈ Profile.all) :
    "NULL" ∈ p.marks soleKey c ↔ c.isRequired = false ∧ p.explicitNull = true := by
  have hother := not_mem_keyword? hp (by decide : "NULL" ∉ numberingWords)
  simp [mem_marks, hother]

theorem numbering_mem_marks {keyword : String} (h : keyword ∈ numberingWords) :
    keyword ∈ p.marks soleKey c ↔
      keyword ∈ p.numbering.keyword? ∧ soleKey = true ∧ c.isIntegerTyped = true := by
  have hother : ∀ word ∈ numberingWords, word ≠ "PRIMARY KEY" ∧ word ≠ "UNIQUE" ∧
      word ≠ "NOT NULL" ∧ word ≠ "NULL" := by decide
  simp [mem_marks, hother keyword h]

theorem map_text_markSegments (p : Profile) (soleKey : Bool) (c : Column) :
    (p.markSegments soleKey c).map (Segment.text p) = p.marks soleKey c := by
  unfold markSegments numberingSegments marks
  cases p.numbering <;>
    simp [apply_ite (List.map (Segment.text p)), Segment.text, Numbering.keyword?]

theorem toList_lineText_segments (hp : p ∈ Profile.all) (soleKey : Bool) (c : Column) :
    (p.lineText (p.segments soleKey c)).toList = (p.quote c.name ++ p.typeText c).toList ++
      ((p.marks soleKey c).flatMap (fun word => ' ' :: word.toList) ++ p.defaultText c) := by
  have hwords : (p.marks soleKey c).filter (· ≠ "") = p.marks soleKey c := by
    have hnonempty : ∀ word ∈ markWords, word ≠ "" := by decide
    refine List.filter_eq_self.mpr fun word hword => decide_eq_true ?_
    exact hnonempty word ((marks_sublist hp _ _).mem hword)
  have htype : p.spacedText
      (c.dataType.map fun token => Segment.nativeType (p.dialect.convertType token)).toList =
        (p.typeText c).toList := by
    unfold typeText
    cases c.dataType with
    | none => rfl
    | some token =>
      by_cases htoken : p.dialect.convertType token = ""
      · simp [spacedText, Segment.text, htoken]
      · simp [spacedText, Segment.text, htoken]
  have hdefault : p.spacedText (c.givenDefault?.map Segment.default).toList = p.defaultText c := by
    unfold defaultText
    cases c.givenDefault? with
    | none => rfl
    | some value => simp [spacedText, Segment.text]
  have hspaced : p.spacedText (p.markSegments soleKey c) =
      (p.marks soleKey c).flatMap fun word => ' ' :: word.toList := by
    rw [spacedText, map_text_markSegments, hwords]
    rfl
  rw [segments_eq, toList_lineText, spacedText_append, spacedText_append, htype, hspaced, hdefault,
    String.toList_append, List.append_assoc]

theorem lineMarks?_lineText (hp : p ∈ Profile.all) (soleKey : Bool) (c : Column) :
    p.lineMarks? c (p.lineText (p.segments soleKey c)) = some (p.marks soleKey c) := by
  have hdrop : (p.lineText (p.segments soleKey c)).toList.dropPrefix?
      (p.quote c.name ++ p.typeText c).toList =
        some ((p.marks soleKey c).flatMap (fun word => ' ' :: word.toList) ++ p.defaultText c) :=
    List.dropPrefix?_eq_some_iff.mpr
      ⟨_, toList_lineText_segments hp soleKey c, beq_self_eq_true _⟩
  have hrest : readMark (p.defaultText c) = none := by
    unfold defaultText
    split
    · rfl
    · exact readMark_default _
  have hend : p.defaultText c = [] ∨ " DEFAULT ".toList.isPrefixOf (p.defaultText c) = true := by
    unfold defaultText
    split
    · exact .inl rfl
    · exact .inr (List.isPrefixOf_iff_prefix.mpr (List.prefix_append _ _))
  have hsteps : (p.marks soleKey c).length ≤
      ((p.marks soleKey c).flatMap (fun word => ' ' :: word.toList) ++ p.defaultText c).length := by
    rw [List.length_append]
    exact Nat.le_trans (length_le_length_flatMap _) (Nat.le_add_right _ _)
  have hmarks := readMarks_append (fun _ => (marks_sublist hp _ _).mem) hrest hsteps
  simp only [lineMarks?, hdrop, hmarks, hend, if_true]

theorem markedLines_eq (hp : p ∈ Profile.all) (t : Table) :
    p.markedLines t =
      t.columns.map fun c => (c, p.marks (!t.hasCompositeKey && c.isPrimaryKey) c) := by
  have hread (c : Column) : (p.lineMarks? c (p.lineText (p.tableSegments t c))).map
      (fun words => (c, words)) = some (c, p.marks (!t.hasCompositeKey && c.isPrimaryKey) c) := by
    rw [tableSegments, lineMarks?_lineText hp]
    rfl
  rw [markedLines, columnLines, ← List.map_prod_left_eq_zip, List.filterMap_map]
  simp only [Function.comp_def, hread, List.filterMap_eq_map']

theorem filter_marks (hp : p ∈ Profile.all) (soleKey : Bool) (c : Column) (word : String) :
    (p.marks soleKey c).filter (· = word) = if word ∈ p.marks soleKey c then [word] else [] := by
  rw [List.filter_eq, (nodup_marks hp soleKey c).count]
  split <;> rfl

theorem columnsWith_eq (hp : p ∈ Profile.all) (t : Table) (word : String) :
    p.columnsWith t word =
      t.columns.filter fun c => word ∈ p.marks (!t.hasCompositeKey && c.isPrimaryKey) c := by
  rw [columnsWith, markedLines_eq hp, List.flatMap_map]
  simp only [filter_marks hp]
  induction t.columns with
  | nil => rfl
  | cons c columns ih =>
    rw [List.flatMap_cons, ih, List.filter_cons]
    by_cases hc : word ∈ p.marks (!t.hasCompositeKey && c.isPrimaryKey) c <;> simp [hc]

theorem mem_columnsWith (hp : p ∈ Profile.all) {t : Table} {word : String} :
    c ∈ p.columnsWith t word ↔
      c ∈ t.columns ∧ word ∈ p.marks (!t.hasCompositeKey && c.isPrimaryKey) c := by
  rw [columnsWith_eq hp, List.mem_filter, decide_eq_true_eq]

end Profile
end SchemaScript
