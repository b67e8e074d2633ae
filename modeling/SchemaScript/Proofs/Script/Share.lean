import SchemaScript.Collection.Shell
import SchemaScript.Script.Statement

/-!
# SchemaScript.Proofs.Script.Share

Scripts are put together from what each table adds to them, and from nothing else that the tables
have: relational scripts from shares (`Scope.scriptText_eq`), shell scripts from the blocks of
collections (`Scope.shellText_eq`).
-/

namespace SchemaScript

/-- The texts that one table adds to a relational script. -/
structure TableShare where
  create : String
  sequences : List String
  triggers : List String
  constraints : List String
deriving DecidableEq, Repr

/-- The columns of a table that a sequence can number. -/
def Table.numberedColumns (t : Table) : List Column :=
  if t.hasCompositeKey then [] else t.primaryKeyColumns.filter (·.isIntegerTyped)

namespace Profile

def sequencedColumns (p : Profile) (t : Table) : List Column :=
  if p.numbering = .sequenceTrigger then t.numberedColumns else []

end Profile

/-- A section of a script, which is left out if it has no texts. -/
def sectionTexts (banner : Option String) (separator : String) : List String → List String
  | [] => []
  | texts =>
    [(match banner with
      | some banner => "-- " ++ banner ++ "\n"
      | none => "") ++ String.intercalate separator texts]

/-- The script with the given shares. -/
def scriptOf (p : Profile) (shares : List TableShare) : String :=
  String.intercalate "\n\n" (sectionTexts none "\n" p.headerStatements ++
    shares.map (·.create) ++
    sectionTexts (some "Sequences") "\n" (shares.flatMap (·.sequences)) ++
    sectionTexts (some "Triggers") "\n\n" (shares.flatMap (·.triggers)) ++
    sectionTexts (some "Constraints") "\n" (shares.flatMap (·.constraints))) ++ "\n"

/-- The shell script with the given blocks for each collection. -/
def shellOf (blocks : List (List String)) : String :=
  String.intercalate "\n\n" (Collection.banner :: blocks.flatten) ++ "\n"

namespace Scope

variable (s : Scope) (p : Profile)

def share (t : Table) : TableShare where
  create := Statement.createTableText p s t
  sequences := (p.sequencedColumns t).map (Statement.createSequenceText p t)
  triggers := (p.sequencedColumns t).map (Statement.createTriggerText p t)
  constraints := (p.deferredConstraints s t).map (·.statement p)

theorem sequenceColumns_eq :
    s.sequenceColumns p = s.tables.flatMap fun t => (p.sequencedColumns t).map fun c => (t, c) := by
  unfold sequenceColumns numberedColumns Profile.sequencedColumns
  by_cases hn : p.numbering = .sequenceTrigger
  · simp only [hn, if_true]
    induction s.tables with
    | nil => rfl
    | cons t tables ih => cases ht : t.hasCompositeKey <;> simp [Table.numberedColumns, ht, ih]
  · simp [hn]

theorem sectionTexts_block {b : Block} (h : b.statements ≠ []) :
    sectionTexts b.banner b.separator (b.statements.map (·.text p s)) = [b.text p s] := by
  obtain ⟨banner, separator, statements⟩ := b
  cases statements with
  | nil => exact absurd rfl h
  | cons st sts => cases banner <;> rfl

theorem map_text_filter (bs : List Block) :
    (bs.filter fun b => !b.statements.isEmpty).map (·.text p s) =
      bs.flatMap fun b => sectionTexts b.banner b.separator (b.statements.map (·.text p s)) := by
  induction bs with
  | nil => rfl
  | cons b bs ih =>
    by_cases hb : b.statements = []
    · simpa [hb, sectionTexts] using ih
    · rw [List.filter_cons_of_pos (by simpa using hb), List.map_cons, List.flatMap_cons,
        sectionTexts_block s p hb, ih]
      rfl

theorem scriptText_eq : s.scriptText p = scriptOf p (s.tables.map (s.share p)) := by
  have hcreate (tables : List Table) :
      (tables.flatMap fun t => sectionTexts none "\n" [(Statement.createTable t).text p s]) =
        tables.map (Statement.createTableText p s) := by
    induction tables with
    | nil => rfl
    | cons t tables ih => rw [List.flatMap_cons, ih]; simp [sectionTexts, Statement.text]
  rw [scriptText, blocks, map_text_filter, scriptOf]
  simp only [allBlocks, sequenceColumns_eq, List.flatMap_append, List.flatMap_cons,
    List.flatMap_nil, List.flatMap_map, List.map_map, List.map_flatMap, List.append_nil,
    List.map_cons, List.map_nil, hcreate]
  simp only [share, Function.comp_def, Statement.text, List.append_assoc, List.map_id']

theorem shellText_eq :
    s.shellText = shellOf (s.tables.map fun t => (Collection.ofTable s t).blocks) := by
  rw [shellText, shellOf, List.flatMap_def]

end Scope
end SchemaScript
