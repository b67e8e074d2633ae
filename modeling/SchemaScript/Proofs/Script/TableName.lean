import SchemaScript.Proofs.Review.Tables
import SchemaScript.Proofs.Script.Identifier

/-!
# SchemaScript.Proofs.Script.TableName

Names of tables and columns as the dialect stores them. A review compares names as they are, so that
those of a clean model are distinct in every dialect that keeps them as they are. Oracle stores
capitals, and there the names are distinct if and only if their capital forms are
(`names_nodup_iff`).
-/

namespace SchemaScript

/-- Folded names are distinct if the names are and, for Oracle, their capital forms are too. -/
theorem nodup_map_fold_iff {p : Profile} (hp : p ∈ Profile.all) {names : List String}
    (h : names.Nodup) :
    (names.map p.fold).Nodup ↔ (p.dialect = .oracle → (names.map Text.upper).Nodup) := by
  have hfold := funext (Profile.fold_eq hp)
  by_cases ho : p.dialect = .oracle
  · simp [hfold, ho]
  · simp [hfold, ho, h]

section Clean

variable {p : Profile} {tables : List Table} {t : Table}

theorem nodup_fold_tables_iff (hp : p ∈ Profile.all)
    (h : (Review.reportOn tables).isClean = true) :
    ((Scope.ofTables tables).tables.map fun t => p.fold t.name).Nodup ↔
      (p.dialect = .oracle →
        ((Scope.ofTables tables).tables.map fun t => Text.upper t.name).Nodup) := by
  have hnames : ((Scope.ofTables tables).tables.map (·.name)).Nodup :=
    (Review.nodup_names_of_isClean h).sublist (List.filter_sublist.map _)
  simpa only [List.map_map, Function.comp_def] using nodup_map_fold_iff hp hnames

theorem nodup_fold_columns_iff (hp : p ∈ Profile.all)
    (h : (Review.reportOn tables).isClean = true) (ht : t ∈ (Scope.ofTables tables).tables) :
    (t.columns.map fun c => p.fold c.name).Nodup ↔
      (p.dialect = .oracle → (t.columns.map fun c => Text.upper c.name).Nodup) := by
  have hnames := Review.nodup_columns_of_isClean h (List.mem_filter.mp ht).1
  simpa only [List.map_map, Function.comp_def] using nodup_map_fold_iff hp hnames

end Clean

/-- The names that the script of a clean model gives to its tables, and the names that the lines of
each table give to its columns, are distinct if the dialect is not Oracle or if their capital forms
are distinct, and not otherwise. -/
theorem names_nodup_iff {p : Profile} (hp : p ∈ Profile.all) {tables : List Table}
    (h : (Review.reportOn tables).isClean = true) :
    let s := Scope.ofTables tables
    s.tableNames p = s.tables.map (fun t => p.fold t.name) ∧
    ((s.tableNames p).Nodup ↔
      (p.dialect = .oracle → (s.tables.map fun t => Text.upper t.name).Nodup)) ∧
    ∀ t ∈ s.tables,
      p.lineNames t = t.columns.map (fun c => p.fold c.name) ∧
      ((p.lineNames t).Nodup ↔
        (p.dialect = .oracle → (t.columns.map fun c => Text.upper c.name).Nodup)) := by
  intro s
  refine ⟨tableNames_eq hp, ?_, fun t ht => ⟨lineNames_eq (isReadable_of_mem hp) t, ?_⟩⟩
  · rw [tableNames_eq hp]
    exact nodup_fold_tables_iff hp h
  · rw [lineNames_eq (isReadable_of_mem hp)]
    exact nodup_fold_columns_iff hp h ht

/-- Names that differ, as do their capital forms, and that hold the quotes of some dialects. -/
def quotedTables : List Table :=
  [.withColumns "a\"]b" [.untyped "id", .untyped "i\"\"d"],
    .withColumns "a\"\"]b" [.untyped "ı]", .untyped "ß"]]

theorem names_nodup_iff_quotedTables :
    let s := Scope.ofTables quotedTables
    let t := quotedTables.getLast (by decide)
    let p := Profile.oracle
    p ∈ Profile.all ∧ (Review.reportOn quotedTables).isClean = true ∧ t ∈ s.tables ∧
    s.tableNames p = ["A\"]B", "A\"\"]B"] ∧ (s.tableNames p).Nodup ∧
    p.lineNames t = ["I]", "SS"] ∧ (p.lineNames t).Nodup := by
  intro s t p
  have hp : p ∈ Profile.all := by decide
  have hclean : (Review.reportOn quotedTables).isClean = true := by decide +kernel
  have ht : t ∈ s.tables := by decide
  obtain ⟨hnames, htables, hlines⟩ := names_nodup_iff hp hclean
  obtain ⟨hcolumns, hline⟩ := hlines t ht
  exact ⟨hp, hclean, ht, hnames.trans (by decide +kernel), htables.mpr fun _ => by decide +kernel,
    hcolumns.trans (by decide +kernel), hline.mpr fun _ => by decide +kernel⟩

/-- Names that only the case of their letters tells apart. -/
def capitalTables : List Table :=
  [.withColumns "Straße" [.untyped "id", .untyped "Id"], .withColumns "STRASSE" [.untyped "id"]]

/-- Oracle stores names of a clean model that are the same. -/
theorem capital_names_clash :
    let s := Scope.ofTables capitalTables
    (Review.reportOn capitalTables).isClean = true ∧ Profile.oracle ∈ Profile.all ∧
    s.tableNames .oracle = ["STRASSE", "STRASSE"] ∧
    ∃ t ∈ s.tables, Profile.oracle.lineNames t = ["ID", "ID"] := by
  refine ⟨by decide +kernel, by decide, by decide +kernel, ?_⟩
  exact ⟨capitalTables.head (by decide), by decide, by decide +kernel⟩

end SchemaScript
