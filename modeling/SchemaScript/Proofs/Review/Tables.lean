import SchemaScript.Proofs.Review.Names

/-!
# SchemaScript.Proofs.Review.Tables

Tables without findings. No key flag is at odds with its reference if both or none of the two are
there (`keyMismatches_eq_nil`). A clean report says of names that those of the tables are distinct,
and those of the columns of each table.
-/

namespace SchemaScript
namespace Review

theorem keyMismatch?_eq_none {c : Column} :
    keyMismatch? c = none ↔ c.isForeignKey = c.reference.isSome := by
  unfold keyMismatch?
  cases c.isForeignKey <;> cases c.reference <;> simp

theorem keyMismatches_eq_nil {t : Table} :
    keyMismatches t = [] ↔ ∀ c ∈ t.columns, c.isForeignKey = c.reference.isSome := by
  simp only [keyMismatches, List.filterMap_eq_nil_iff, Option.map_eq_none_iff,
    keyMismatch?_eq_none]

/-- A clean report has no findings of any kind, except for tables that refer to themselves. -/
theorem isClean_iff {tables : List Table} :
    (reportOn tables).isClean = true ↔
      namingConflicts tables = [] ∧ (∀ t ∈ tables, duplicateColumns t = []) ∧
      (∀ t ∈ tables, keyMismatches t = []) ∧ unresolvedReferences tables = [] ∧
      circles tables = [] := by
  simp only [Report.isClean, TableFindings.isClean, reportOn, Bool.and_eq_true,
    List.isEmpty_iff, List.flatMap_eq_nil_iff, and_assoc]

theorem nodup_names_of_isClean {tables : List Table} (h : (reportOn tables).isClean = true) :
    (tables.map (·.name)).Nodup := by
  obtain ⟨hnames, -⟩ := isClean_iff.mp h
  exact namingConflicts_eq_nil.mp hnames

theorem nodup_columns_of_isClean {tables : List Table} (h : (reportOn tables).isClean = true)
    {t : Table} (ht : t ∈ tables) : (t.columns.map (·.name)).Nodup := by
  obtain ⟨-, hcolumns, -⟩ := isClean_iff.mp h
  exact duplicateColumns_eq_nil.mp (hcolumns t ht)

end Review
end SchemaScript
