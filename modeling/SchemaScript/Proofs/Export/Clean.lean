import SchemaScript.Proofs.Export.Unresolved
import SchemaScript.Proofs.Review.Tables
import SchemaScript.Proofs.Script.Segment

/-!
# SchemaScript.Proofs.Export.Clean

A model with a clean report has scripts whose references are closed (`closed_of_isClean`).

A clean report says of each column that it is flagged as a foreign key if and only if it has a
reference (`isForeignKey_of_isClean`), and of each reference that its target is exported
(`exists_target_of_isClean`). So no reference is dropped, and the line of a column, which starts
with the name of the column (`exists_columnLine`), stands in the table that a reference points at.
-/

namespace SchemaScript

/-! ## Clean reports -/

namespace Review

variable {tables : List Table}

theorem missing?_eq_none {r : Reference} :
    missing? tables r = none ↔
      ∃ u, lastTable? tables r.table = some u ∧ (u.column? r.column).isSome = true := by
  unfold missing?
  cases lastTable? tables r.table with
  | none => simp
  | some u => simp [Option.isSome_iff_ne_none]

theorem isForeignKey_of_isClean (h : (reportOn tables).isClean = true) {t : Table}
    (ht : t ∈ tables) {c : Column} (hc : c ∈ t.columns) :
    c.isForeignKey = c.reference.isSome := by
  obtain ⟨-, -, hmismatches, -⟩ := isClean_iff.mp h
  exact keyMismatches_eq_nil.mp (hmismatches t ht) c hc

theorem unresolved_of_isClean (h : (reportOn tables).isClean = true) :
    unresolvedReferences tables = [] := by
  obtain ⟨-, -, -, hunresolved, -⟩ := isClean_iff.mp h
  exact hunresolved

/-- No reference of a clean model is dropped. -/
theorem dropped_of_isClean (h : (reportOn tables).isClean = true) :
    (Scope.ofTables tables).unresolved = [] := by
  have hfilter := filter_unresolvedReferences tables
  rw [unresolved_of_isClean h, List.filter_nil] at hfilter
  exact List.map_eq_nil_iff.mp hfilter.symm

/-- The target of a reference is a column of an exported table. -/
theorem exists_target_of_isClean (h : (reportOn tables).isClean = true) {t : Table}
    (ht : t ∈ (Scope.ofTables tables).tables) {l : Link} (hl : l ∈ t.links) :
    ∃ u ∈ (Scope.ofTables tables).tables, u.name = l.target.table ∧
      ∃ c ∈ u.columns, c.name = l.target.column := by
  have hfindings : unresolvedOf (Scope.ofTables tables).tables t = [] :=
    List.flatMap_eq_nil_iff.mp (unresolved_of_isClean h) t ht
  have hlink := List.filterMap_eq_nil_iff.mp hfindings l hl
  obtain ⟨u, hu, hcolumn⟩ := missing?_eq_none.mp (Option.map_eq_none_iff.mp hlink)
  obtain ⟨c, hc⟩ := Option.isSome_iff_exists.mp hcolumn
  have hname : u.name = l.target.table := by simpa using List.find?_some hu
  have hcname : c.name = l.target.column := by simpa using List.find?_some hc
  exact ⟨u, List.mem_reverse.mp (List.mem_of_find?_eq_some hu), hname, c,
    List.mem_of_find?_eq_some hc, hcname⟩

end Review

/-! ## Lines of columns -/

namespace Profile

/-- The line of a column starts with its name. -/
theorem quote_prefix_lineText (p : Profile) (t : Table) (c : Column) :
    (p.quote c.name).toList <+: (p.lineText (p.tableSegments t c)).toList := by
  obtain ⟨later, hline⟩ := p.exists_toList_lineText t c
  rw [hline]
  exact List.prefix_append _ _

theorem exists_columnLine (p : Profile) {t : Table} {c : Column} (hc : c ∈ t.columns) :
    ∃ line ∈ p.columnLines t, (p.quote c.name).toList <+: line.toList :=
  ⟨_, List.mem_map.mpr ⟨c, hc, rfl⟩, p.quote_prefix_lineText t c⟩

/-- Constraints on foreign keys are made from the foreign keys of their table. -/
theorem mem_foreignKeyConstraints {p : Profile} {s : Scope} {t : Table} {k : Constraint}
    (h : k ∈ p.bodyForeignKeys s t ++ p.deferredForeignKeys s t) :
    ∃ l ∈ t.links, k = .foreignKey t.name l.column.name l.target := by
  have hk : k ∈ t.foreignKeyConstraints s := by
    simp only [bodyForeignKeys, deferredForeignKeys, List.mem_append] at h
    rcases h with h | h
    · split at h
      · exact h
      · cases h
    · split at h
      · exact h
      · cases h
  obtain ⟨l, hl, rfl⟩ := List.mem_map.mp hk
  exact ⟨l, (List.mem_filter.mp hl).1, rfl⟩

end Profile

/-! ## Closed scripts -/

/-- What a clean report guarantees. Exports of the model succeed, and strict ones give what the
others give. Each column that is flagged as a foreign key or has a reference has its foreign key in
each relational script. And each foreign key points at an exported table with a line that starts
with the quoted name of the target column. -/
theorem closed_of_isClean (tables : List Table) (hs : (Scope.ofTables tables).tables ≠ [])
    (h : (Review.reportOn tables).isClean = true) :
    let s := Scope.ofTables tables
    (∀ (o : ExportOptions) (d : Dialect) (date : Date), ∃ a : Artifact,
      ((o.withStrictReferences true).exportOn tables d date).result = .ok a ∧
      ((o.withStrictReferences false).exportOn tables d date).result = .ok a) ∧
    (∀ p ∈ Profile.all, ∀ t ∈ s.tables,
      (∀ c ∈ t.columns, (c.isForeignKey = true ∨ c.reference.isSome = true) →
        ∃ r, c.reference = some r ∧
          foreignKeyText p t c r ∈ (p.bodyForeignKeys s t).map (·.clause p) ++
            (p.deferredForeignKeys s t).map (·.statement p)) ∧
      ∀ k ∈ p.bodyForeignKeys s t ++ p.deferredForeignKeys s t,
        ∃ column target, k = .foreignKey t.name column target ∧
          ∃ u ∈ s.tables, u.name = target.table ∧
            ∃ line ∈ p.columnLines u, (p.quote target.column).toList <+: line.toList) := by
  intro s
  have hdropped : s.unresolved = [] := Review.dropped_of_isClean h
  refine ⟨fun o d date => ⟨o.artifact s d date, ?_, ?_⟩, fun p hp t ht => ⟨?_, ?_⟩⟩
  · rw [ExportOptions.result_exportOn hs, hdropped]
    rfl
  · rw [ExportOptions.result_exportOn hs, hdropped]
    rfl
  · intro c hc hkey
    -- In a clean model the flag and the reference come together, so that either is enough.
    have hflag := Review.isForeignKey_of_isClean h (Scope.mem_tables_ofTables.mp ht).1 hc
    have hforeign : c.isForeignKey = true := by
      rcases hkey with hkey | hkey
      · exact hkey
      · rw [hflag, hkey]
    obtain ⟨r, hr⟩ := Option.isSome_iff_exists.mp (hflag.symm.trans hforeign)
    have hlink : (⟨c, r⟩ : Link) ∈ t.links :=
      List.mem_filterMap.mpr ⟨c, hc, by simp [Column.foreignKey?, hforeign, hr]⟩
    obtain ⟨u, hu, hname, -⟩ := Review.exists_target_of_isClean h ht hlink
    have hpoints : r.PointsInto tables :=
      ⟨u, (Scope.mem_tables_ofTables.mp hu).1, hname, (Scope.mem_tables_ofTables.mp hu).2⟩
    have hdeclared : c.declared? tables = some r := by
      simp [Column.declared?, hforeign, hr, hpoints]
    refine ⟨r, hr, ?_⟩
    rw [foreignKeyTexts_table hp]
    exact List.mem_filterMap.mpr ⟨c, hc, by rw [hdeclared]; rfl⟩
  · intro k hk
    obtain ⟨l, hl, rfl⟩ := Profile.mem_foreignKeyConstraints hk
    obtain ⟨u, hu, hname, c, hc, hcolumn⟩ := Review.exists_target_of_isClean h ht hl
    refine ⟨_, _, rfl, u, hu, hname, ?_⟩
    rw [← hcolumn]
    exact p.exists_columnLine hc

/-- A table that refers to itself and to the one before it. -/
def cleanTables : List Table :=
  let key : Column := (Column.untyped "id").primaryKey
  [.withColumns "node" [key],
    .withColumns "edge" [key, (Column.untyped "start").references "node" "id" .manyToOne,
      (Column.untyped "next").references "edge" "id" .oneToOne]]

theorem closed_of_isClean_cleanTables :
    let s := Scope.ofTables cleanTables
    let p := Profile.oracle
    let t := cleanTables.getLast (by decide)
    let r : Reference := ⟨"node", "id", .manyToOne⟩
    let c := (Column.untyped "start").references r.table r.column r.kind
    s.tables ≠ [] ∧
    (Review.reportOn cleanTables).isClean = true ∧
    (∃ a : Artifact,
      ((ExportOptions.standard.withStrictReferences true).exportOn cleanTables .oracle
        ⟨2024, 5, 6⟩).result = .ok a ∧
      ((ExportOptions.standard.withStrictReferences false).exportOn cleanTables .oracle
        ⟨2024, 5, 6⟩).result = .ok a) ∧
    p ∈ Profile.all ∧ t ∈ s.tables ∧ c ∈ t.columns ∧ c.isForeignKey = true ∧
    (∃ r, c.reference = some r ∧
      foreignKeyText p t c r ∈ (p.bodyForeignKeys s t).map (·.clause p) ++
        (p.deferredForeignKeys s t).map (·.statement p)) ∧
    .foreignKey "edge" "start" r ∈ p.bodyForeignKeys s t ++ p.deferredForeignKeys s t ∧
    ∃ column target, .foreignKey "edge" "start" r = Constraint.foreignKey t.name column target ∧
      ∃ u ∈ s.tables, u.name = target.table ∧
        ∃ line ∈ p.columnLines u, (p.quote target.column).toList <+: line.toList := by
  intro s p t r c
  have hs : s.tables ≠ [] := by decide
  have hclean : (Review.reportOn cleanTables).isClean = true := by decide +kernel
  have hp : p ∈ Profile.all := by decide
  have ht : t ∈ s.tables := by decide
  have hc : c ∈ t.columns := by decide
  have hkey :
      .foreignKey "edge" "start" r ∈ p.bodyForeignKeys s t ++ p.deferredForeignKeys s t := by
    decide
  obtain ⟨hexport, htables⟩ := closed_of_isClean cleanTables hs hclean
  exact ⟨hs, hclean, hexport .standard .oracle ⟨2024, 5, 6⟩, hp, ht, hc, rfl,
    (htables p hp t ht).1 c hc (.inl rfl), hkey, (htables p hp t ht).2 _ hkey⟩

end SchemaScript
