import SchemaScript.Proofs.Text.Intercalate
import SchemaScript.Script.ColumnLine

/-!
# SchemaScript.Proofs.Script.Segment

The segments on the line of a column: its name, its type, marks, and a default (`segments_eq`). In
the text of the line, the quoted name comes first, and all that follows has a blank in front of it
(`toList_lineText`).
-/

namespace SchemaScript
namespace Profile

/-- The segment for numbering on a line, if there is one. -/
def numberingSegments (p : Profile) (soleKey : Bool) (c : Column) : List Segment :=
  match p.numbering with
  | .inline keyword => if soleKey && c.isIntegerTyped then [.numbering keyword] else []
  | _ => []

/-- The segments of a line that are marks. -/
def markSegments (p : Profile) (soleKey : Bool) (c : Column) : List Segment :=
  p.numberingSegments soleKey c ++
  (if p.inlineKeys && soleKey then [.primaryKey] else []) ++
  (if p.inlineKeys && c.isUnique && !c.isPrimaryKey then [.unique] else []) ++
  (if c.isRequired then [.notNull] else if p.explicitNull then [.null] else [])

theorem segments_eq (p : Profile) (soleKey : Bool) (c : Column) :
    p.segments soleKey c = .identifier c.name ::
      ((c.dataType.map fun token => Segment.nativeType (p.dialect.convertType token)).toList ++
        (p.markSegments soleKey c ++ (c.givenDefault?.map Segment.default).toList)) := by
  simp only [segments, markSegments, numberingSegments, List.append_assoc]
  rfl

variable {p : Profile} {soleKey : Bool} {c : Column}

theorem nativeType_mem_segments {text : String} :
    .nativeType text ∈ p.segments soleKey c ↔
      ∃ token ∈ c.dataType, text = p.dialect.convertType token := by
  simp only [segments, List.mem_append]
  cases c.dataType <;> cases p.numbering <;> simp <;> split <;> simp

theorem numbering_mem_segments {keyword : String} :
    .numbering keyword ∈ p.segments soleKey c ↔
      (soleKey = true ∧ c.isIntegerTyped = true) ∧ .inline keyword = p.numbering := by
  simp only [segments, List.mem_append]
  cases p.numbering <;> simp <;> (repeat' split) <;> simp_all

theorem quote_ne_empty (p : Profile) (name : String) : p.quote name ≠ "" := by
  intro h
  have hlist := congrArg String.toList h
  rw [quote, String.toList_ofList] at hlist
  cases hlist

/-- The segments that have text, with a blank in front of each. -/
def spacedText (p : Profile) (line : List Segment) : List Char :=
  ((line.map (·.text p)).filter (· ≠ "")).flatMap fun text => " ".toList ++ text.toList

theorem spacedText_append (p : Profile) (front back : List Segment) :
    p.spacedText (front ++ back) = p.spacedText front ++ p.spacedText back := by
  simp only [spacedText, List.map_append, List.filter_append, List.flatMap_append]

theorem toList_lineText (p : Profile) (name : String) (line : List Segment) :
    (p.lineText (.identifier name :: line)).toList =
      (p.quote name).toList ++ p.spacedText line := by
  have hkept (texts : List String) : (p.quote name :: texts).filter (· ≠ "") =
      p.quote name :: texts.filter (· ≠ "") :=
    List.filter_cons_of_pos (decide_eq_true (p.quote_ne_empty name))
  rw [lineText, List.map_cons, Segment.text, hkept, String.toList_intercalate, List.map_cons,
    Text.intercalate_cons, List.flatMap_map, spacedText]

/-- The line of a column: its name, and the other segments with a blank in front of each. -/
theorem exists_toList_lineText (p : Profile) (t : Table) (c : Column) :
    ∃ later : List (List Char), (p.lineText (p.tableSegments t c)).toList =
      (p.quote c.name).toList ++ later.flatMap (" ".toList ++ ·) := by
  have hspaced (line : List Segment) : p.spacedText line =
      (((line.map (·.text p)).filter (· ≠ "")).map (·.toList)).flatMap (" ".toList ++ ·) := by
    rw [spacedText, List.flatMap_map]
  exact ⟨_, by rw [tableSegments, segments_eq, toList_lineText, hspaced]⟩

end Profile
end SchemaScript
