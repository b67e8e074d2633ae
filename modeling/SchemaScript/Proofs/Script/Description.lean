import SchemaScript.Proofs.Text.Trim
import SchemaScript.Script.Statement

/-!
# SchemaScript.Proofs.Script.Description

The comment lines in front of a table, as they are read where a comment ends at a carriage return as
well as at a line feed.

A description is cut at its line feeds, with a carriage return right before each, and the other
carriage returns stay inside of the comments. What stands behind one of these is a line of its own,
without the two dashes (`descriptionText_comment_iff`).
-/

namespace SchemaScript

namespace Text

/-- One more character in front of the first line. -/
def startLine (c : Char) : List (List Char) → List (List Char)
  | [] => [[c]]
  | line :: lines => (c :: line) :: lines

/-- The lines of a text where a line feed, a carriage return, or both of them end a line. What
follows the last end is a line too. -/
def breakLines : List Char → List (List Char)
  | [] => [[]]
  | '\r' :: '\n' :: rest => [] :: breakLines rest
  | c :: rest =>
    if c = '\r' ∨ c = '\n' then [] :: breakLines rest else startLine c (breakLines rest)

theorem breakLines_return {rest : List Char} (h : rest.head? ≠ some '\n') :
    breakLines ('\r' :: rest) = [] :: breakLines rest := by
  rw [breakLines]
  · simp
  · rintro rest' - rfl
    exact h rfl

theorem breakLines_other {c : Char} (hr : c ≠ '\r') (hn : c ≠ '\n') (rest : List Char) :
    breakLines (c :: rest) = startLine c (breakLines rest) := by
  rw [breakLines]
  · simp [hr, hn]
  · exact fun _ hc _ => hr hc

theorem startLine_append (c : Char) {lines : List (List Char)} (h : lines ≠ [])
    (later : List (List Char)) : startLine c (lines ++ later) = startLine c lines ++ later := by
  cases lines with
  | nil => exact absurd rfl h
  | cons line lines => rfl

theorem breakLines_ne_nil (cs : List Char) : breakLines cs ≠ [] := by
  fun_induction breakLines cs with
  | case1 => simp
  | case2 rest ih => simp
  | case3 c rest _ hc ih => simp
  | case4 c rest _ hc ih => cases h : breakLines rest <;> simp [startLine]

theorem breakLines_of_not_mem {cs : List Char} (hr : '\r' ∉ cs) (hn : '\n' ∉ cs) :
    breakLines cs = [cs] := by
  induction cs with
  | nil => rfl
  | cons c cs ih =>
    rw [List.mem_cons, not_or] at hr hn
    rw [breakLines_other (Ne.symm hr.1) (Ne.symm hn.1), ih hr.2 hn.2]
    rfl

/-- A line feed that does not belong to a carriage return ends a line of its own. -/
theorem breakLines_append_lineFeed {cs : List Char} (h : cs.getLast? ≠ some '\r')
    (rest : List Char) : breakLines (cs ++ '\n' :: rest) = breakLines cs ++ breakLines rest := by
  have hlater {c : Char} {cs : List Char} (h : (c :: cs).getLast? ≠ some '\r') :
      cs.getLast? ≠ some '\r' := fun hlast => h (by simp [List.getLast?_cons, hlast])
  fun_induction breakLines cs with
  | case1 => simp [breakLines]
  | case2 cs ih =>
    rw [List.cons_append, List.cons_append, breakLines, ih (hlater (hlater h))]
    rfl
  | case3 c cs hpair hc ih =>
    rw [List.cons_append, List.cons_append, ← ih (hlater h)]
    rcases hc with rfl | rfl
    · refine breakLines_return fun hhead => ?_
      cases cs with
      | nil => exact h rfl
      | cons d cs => exact hpair cs rfl (by rw [Option.some.inj hhead])
    · simp [breakLines]
  | case4 c cs hpair hc ih =>
    rw [not_or] at hc
    rw [List.cons_append, breakLines_other hc.1 hc.2, ih (hlater h),
      startLine_append c (breakLines_ne_nil cs)]

end Text

/-- A line that is read as no more than a comment. -/
def IsCommentLine (line : List Char) : Prop :=
  line = [] ∨ "-- ".toList <+: line

instance (line : List Char) : Decidable (IsCommentLine line) :=
  inferInstanceAs (Decidable (_ ∨ _))

/-- What stands behind the carriage returns of a line, without the white space at its end. -/
def behindReturns (line : String) : List (List Char) :=
  (Text.breakLines (Text.trimEnd line).toList).tail

/-- A comment is a line, and one more for each carriage return in its text. -/
theorem breakLines_comment (line : String) (rest : List Char) :
    ∃ first, IsCommentLine first ∧
      Text.breakLines (("-- " ++ Text.trimEnd line ++ "\n").toList ++ rest) =
        first :: (behindReturns line ++ Text.breakLines rest) := by
  obtain ⟨head, tail, hlines⟩ :=
    List.exists_cons_of_ne_nil (Text.breakLines_ne_nil (Text.trimEnd line).toList)
  have htext : ("-- " ++ Text.trimEnd line ++ "\n").toList ++ rest =
      ('-' :: '-' :: ' ' :: (Text.trimEnd line).toList) ++ '\n' :: rest := by
    simp
  have hlast : ('-' :: '-' :: ' ' :: (Text.trimEnd line).toList).getLast? ≠ some '\r' := by
    have htrim : (Text.trimEndChars line.toList).getLast? ≠ some '\r' := fun hreturn => by
      have hblank := Text.getLast?_trimEndChars line.toList
      rw [hreturn] at hblank
      exact absurd hblank (by decide)
    rw [Text.trimEnd, String.toList_ofList]
    cases h : Text.trimEndChars line.toList with
    | nil => decide
    | cons c cs =>
      rw [h] at htrim
      simpa only [List.getLast?_cons_cons] using htrim
  refine ⟨'-' :: '-' :: ' ' :: head, .inr (List.prefix_append "-- ".toList head), ?_⟩
  rw [htext, Text.breakLines_append_lineFeed hlast, behindReturns, hlines,
    Text.breakLines_other (by decide) (by decide), Text.breakLines_other (by decide) (by decide),
    Text.breakLines_other (by decide) (by decide), hlines]
  rfl

theorem commentLines_iff (lines : List String) :
    (∀ line ∈ Text.breakLines
        (lines.flatMap fun line => ("-- " ++ Text.trimEnd line ++ "\n").toList),
      IsCommentLine line) ↔
      ∀ line ∈ lines, ∀ piece ∈ behindReturns line, IsCommentLine piece := by
  induction lines with
  | nil => simp [Text.breakLines, IsCommentLine]
  | cons line lines ih =>
    rw [List.flatMap_cons]
    obtain ⟨first, hfirst, hlines⟩ := breakLines_comment line
      (lines.flatMap fun line => ("-- " ++ Text.trimEnd line ++ "\n").toList)
    rw [hlines, List.forall_mem_cons, List.forall_mem_append, ih, List.forall_mem_cons]
    exact and_iff_right hfirst

theorem behindReturns_eq_nil {line : String} (hn : '\n' ∉ line.toList)
    (hr : '\r' ∉ (Text.trimEnd line).toList) : behindReturns line = [] := by
  have hfeed : '\n' ∉ (Text.trimEnd line).toList := by
    rw [Text.trimEnd, String.toList_ofList]
    exact fun h => hn (Text.mem_of_mem_trimEndChars h)
  rw [behindReturns, Text.breakLines_of_not_mem hr hfeed]
  rfl

/-- In front of a table stands nothing but its description. Each line of it is a comment if and only
if, for each line of the description, what stands behind the carriage returns inside of it is empty
or starts with dashes of its own; this is so, in particular, when there are none inside of lines. -/
theorem descriptionText_comment_iff (p : Profile) (s : Scope) (t : Table) :
    (∃ rest, Statement.createTableText p s t =
      Statement.descriptionText t ++ ("CREATE TABLE " ++ rest)) ∧
    ((∀ line ∈ Text.breakLines (Statement.descriptionText t).toList, IsCommentLine line) ↔
      ∀ description ∈ t.givenDescription?, ∀ line ∈ Text.lines description,
        ∀ piece ∈ behindReturns line, IsCommentLine piece) ∧
    ((∀ description ∈ t.givenDescription?, ∀ line ∈ Text.lines description,
        '\r' ∉ (Text.trimEnd line).toList) →
      ∀ line ∈ Text.breakLines (Statement.descriptionText t).toList, IsCommentLine line) := by
  have hiff : (∀ line ∈ Text.breakLines (Statement.descriptionText t).toList,
      IsCommentLine line) ↔ ∀ description ∈ t.givenDescription?, ∀ line ∈ Text.lines description,
        ∀ piece ∈ behindReturns line, IsCommentLine piece := by
    unfold Statement.descriptionText
    cases h : t.givenDescription? with
    | none => simp [Text.breakLines, IsCommentLine]
    | some description =>
      simp only [Option.mem_some_iff, forall_eq']
      rw [Statement.commentText, String.toList_join, List.flatMap_map]
      exact commentLines_iff (Text.lines description)
  refine ⟨?_, hiff, fun hreturns => hiff.mpr fun description hd line hl piece hpiece => ?_⟩
  · unfold Statement.createTableText Statement.tableText
    simp only [String.append_assoc]
    exact ⟨_, rfl⟩
  · have hfeed : '\n' ∉ line.toList := by
      obtain ⟨cs, hcs, rfl⟩ := List.mem_map.mp hl
      rw [String.toList_ofList]
      exact Text.not_mem_of_mem_lineChars hcs
    rw [behindReturns_eq_nil hfeed (hreturns description hd line hl)] at hpiece
    cases hpiece

/-- A table with the given description. -/
def notedTable (description : String) : Table :=
  ⟨"audit", some description, [.untyped "id"]⟩

theorem descriptionText_comment_iff_notedTable :
    let dashed := notedTable "kept\r\nfor ever\r-- or longer\r"
    let plain := notedTable "kept\r\nfor ever \r"
    (∃ rest, Statement.createTableText .postgreSql (.ofTables [dashed]) dashed =
      Statement.descriptionText dashed ++ ("CREATE TABLE " ++ rest)) ∧
    (∀ line ∈ Text.breakLines (Statement.descriptionText dashed).toList, IsCommentLine line) ∧
    (∀ description ∈ plain.givenDescription?, ∀ line ∈ Text.lines description,
      '\r' ∉ (Text.trimEnd line).toList) ∧
    ∀ line ∈ Text.breakLines (Statement.descriptionText plain).toList, IsCommentLine line := by
  intro dashed plain
  have hplain : ∀ description ∈ plain.givenDescription?, ∀ line ∈ Text.lines description,
      '\r' ∉ (Text.trimEnd line).toList := by decide +kernel
  obtain ⟨htext, hiff, -⟩ := descriptionText_comment_iff .postgreSql (.ofTables [dashed]) dashed
  have hreturns := (descriptionText_comment_iff .postgreSql (.ofTables [plain]) plain).2.2
  exact ⟨htext, hiff.mpr (by decide +kernel), hplain, hreturns hplain⟩

/-- Behind a carriage return, a description goes on as a statement. -/
theorem description_leaves_comment :
    let t := notedTable "note\rDROP TABLE users;"
    Text.breakLines (Statement.descriptionText t).toList =
      ["-- note".toList, "DROP TABLE users;".toList, []] ∧
    ¬ IsCommentLine "DROP TABLE users;".toList := by
  decide +kernel

end SchemaScript
