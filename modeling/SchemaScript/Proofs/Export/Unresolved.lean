import SchemaScript.Export.Service
import SchemaScript.Proofs.Script.ForeignKey

/-!
# SchemaScript.Proofs.Export.Unresolved

The review of a model, the scope of an export and a strict export agree on the tables that are
missing (`unresolved_agree`).

* `missing?_eq_missingTable`: for the review a table is missing if a reference does not resolve.
* `filter_unresolvedReferences`: its findings of this kind are the references that are dropped.
* `result_exportOn`: what an export of at least one table comes to; a strict one fails at the first
  reference that is dropped.
-/

namespace SchemaScript

/-! ## Findings -/

namespace Review

theorem lastTable?_eq_none {tables : List Table} {name : String} :
    lastTable? tables name = none ↔ ∀ t ∈ tables, t.name ≠ name := by
  simp [lastTable?]

theorem missing?_eq_missingTable {s : Scope} {r : Reference} :
    missing? s.tables r = some .missingTable ↔ s.resolves r = false := by
  have hnone : lastTable? s.tables r.table = none ↔ s.resolves r = false := by
    rw [lastTable?_eq_none]
    simp [Scope.resolves, Scope.hasTable]
  rw [← hnone, missing?]
  cases lastTable? s.tables r.table with
  | none => simp
  | some t => by_cases h : (t.column? r.column).isNone = true <;> simp [h]

/-- The finding about a reference to a table that is not exported. -/
def missingTable (t : Table) (l : Link) : UnresolvedReference :=
  ⟨t.name, l.column.name, l.target, .missingTable⟩

theorem filter_unresolvedOf (s : Scope) (t : Table) :
    (unresolvedOf s.tables t).filter (·.kind = .missingTable) =
      (s.dropped t).map (missingTable t) := by
  rw [unresolvedOf, List.filter_filterMap, Scope.dropped, ← List.filterMap_eq_map,
    List.filterMap_filter]
  -- Both sides go through the foreign keys of the table, and can be compared one by one.
  congr 1
  funext l
  have hmissing := missing?_eq_missingTable (s := s) (r := l.target)
  cases hr : s.resolves l.target with
  | false =>
    rw [hmissing.mpr hr]
    rfl
  | true =>
    cases hm : missing? s.tables l.target with
    | none => rfl
    | some kind =>
      cases kind with
      | missingTable => rw [hmissing.mp hm] at hr; cases hr
      | missingColumn => rfl

/-- The tables that the review misses are those for which references are dropped. -/
theorem filter_unresolvedReferences (tables : List Table) :
    (unresolvedReferences tables).filter (·.kind = .missingTable) =
      (Scope.ofTables tables).unresolved.map fun e => missingTable e.1 e.2 := by
  rw [unresolvedReferences, List.filter_flatMap, Scope.unresolved, List.map_flatMap]
  congr 1
  funext t
  rw [List.map_map]
  exact filter_unresolvedOf (.ofTables tables) t

end Review

/-! ## Foreign keys of a table -/

theorem Table.columns_links (t : Table) :
    t.links.map (·.column) = t.columns.filter (·.foreignKey?.isSome) := by
  rw [Table.links, List.map_filterMap, ← List.filterMap_eq_filter]
  congr 1
  funext c
  cases hc : c.foreignKey? <;> simp [Option.guard, hc]

/-- A foreign key is kept or dropped, and not both. -/
theorem Scope.partition_links (s : Scope) (t : Table) :
    t.links.partition (· ∈ s.foreignKeys t) = (s.foreignKeys t, s.dropped t) := by
  have hmem : ∀ l ∈ t.links, decide (l ∈ s.foreignKeys t) = s.resolves l.target := by
    intro l hl
    rw [Scope.foreignKeys, Bool.eq_iff_iff, decide_eq_true_eq, List.mem_filter]
    exact ⟨fun h => h.2, fun h => ⟨hl, h⟩⟩
  have hkept : t.links.filter (· ∈ s.foreignKeys t) = s.foreignKeys t :=
    List.filter_congr hmem
  have hdropped : t.links.filter (fun l => !decide (l ∈ s.foreignKeys t)) = s.dropped t :=
    List.filter_congr fun l hl => by rw [hmem l hl]
  rw [List.partition_eq_filter_filter, hkept]
  exact Prod.ext rfl hdropped

/-! ## Exports -/

namespace ExportOptions

/-- The artifact of an export that succeeds. -/
def artifact (o : ExportOptions) (s : Scope) (d : Dialect) (date : Date) : Artifact :=
  ⟨(s.generate d).1, Artifact.filenameFor o.filenamePrefix d date,
    Artifact.mimeTypeFor d.fileExtension, d⟩

/-- The error that names a reference. -/
def unresolvedError (t : Table) (l : Link) : ExportError :=
  .unresolvedReference t.name l.column.name (l.target.table ++ "." ++ l.target.column)

theorem result_exportOn {tables : List Table} (h : (Scope.ofTables tables).tables ≠ [])
    (o : ExportOptions) (d : Dialect) (date : Date) :
    (o.exportOn tables d date).result =
      match o.strictReferences, (Scope.ofTables tables).unresolved with
      | true, (t, l) :: _ => .error (unresolvedError t l)
      | _, _ => .ok (o.artifact (.ofTables tables) d date) := by
  have hgiven : tables.isEmpty = false := by
    cases tables with
    | nil => exact absurd rfl h
    | cons t tables => rfl
  have hscope : (Scope.ofTables tables).isEmpty = false := by
    simpa [Scope.isEmpty] using h
  rw [exportOn, check]
  simp only [hgiven, hscope, Bool.false_eq_true, if_false]
  cases o.strictReferences with
  | false => rfl
  | true => cases (Scope.ofTables tables).unresolved <;> rfl

/-- A strict export fails at the first reference that is dropped, and succeeds if there is none. -/
theorem strict_result_exportOn {tables : List Table} (h : (Scope.ofTables tables).tables ≠ [])
    {o : ExportOptions} (ho : o.strictReferences = true) (d : Dialect) (date : Date) :
    (o.exportOn tables d date).result =
      match (Scope.ofTables tables).unresolved.head? with
      | some (t, l) => .error (unresolvedError t l)
      | none => .ok (o.artifact (.ofTables tables) d date) := by
  rw [result_exportOn h, ho]
  cases (Scope.ofTables tables).unresolved <;> rfl

end ExportOptions

namespace Review

/-- The first finding about a missing table is about the first reference that is dropped. -/
theorem find?_unresolvedReferences (tables : List Table) :
    (unresolvedReferences tables).find? (·.kind = .missingTable) =
      (Scope.ofTables tables).unresolved.head?.map fun e => missingTable e.1 e.2 := by
  rw [← List.head?_filter, filter_unresolvedReferences, List.head?_map]

/-- The review, the scope of an export and strict exports agree on missing tables: the findings are
the references that are dropped, which together with those that are kept are the foreign keys of the
exported tables, and a strict export fails if and only if there is such a finding, with the names of
the first one. -/
theorem unresolved_agree (tables : List Table) :
    let s := Scope.ofTables tables
    (unresolvedReferences tables).filter (·.kind = .missingTable) =
      s.unresolved.map (fun e => ⟨e.1.name, e.2.column.name, e.2.target, .missingTable⟩) ∧
    s.unresolved = s.tables.flatMap (fun t => (s.dropped t).map fun l => (t, l)) ∧
    (∀ t ∈ s.tables,
      t.links.map (·.column) = t.columns.filter (·.foreignKey?.isSome) ∧
      t.links.partition (· ∈ s.foreignKeys t) = (s.foreignKeys t, s.dropped t)) ∧
    (s.tables ≠ [] → ∀ o : ExportOptions, o.strictReferences = true → ∀ d date,
      ((∃ table column target, (o.exportOn tables d date).result =
          .error (.unresolvedReference table column target)) ↔
        ∃ u ∈ unresolvedReferences tables, u.kind = .missingTable) ∧
      ∀ table column target, (o.exportOn tables d date).result =
          .error (.unresolvedReference table column target) →
        ∃ u, (unresolvedReferences tables).find? (·.kind = .missingTable) = some u ∧
          table = u.table ∧ column = u.column ∧
          target = u.target.table ++ "." ++ u.target.column) := by
  intro s
  refine ⟨filter_unresolvedReferences tables, rfl,
    fun t _ => ⟨t.columns_links, s.partition_links t⟩, fun hs o ho d date => ?_⟩
  have hresult := ExportOptions.strict_result_exportOn hs ho d date
  have hfind := find?_unresolvedReferences tables
  have hreported : (∃ u ∈ unresolvedReferences tables, u.kind = .missingTable) ↔
      ((unresolvedReferences tables).find? (·.kind = .missingTable)).isSome = true := by
    simp [List.find?_isSome]
  rw [hreported, hfind]
  cases hhead : s.unresolved.head? with
  | none =>
    rw [hhead] at hresult
    simp [hresult]
  | some e =>
    obtain ⟨t, l⟩ := e
    rw [hhead] at hresult
    refine ⟨⟨fun _ => rfl, fun _ => ⟨_, _, _, hresult⟩⟩, fun table column target h => ?_⟩
    rw [hresult] at h
    cases h
    exact ⟨missingTable t l, rfl, rfl, rfl, rfl⟩

theorem unresolved_agree_linkedTables :
    let s := Scope.ofTables linkedTables
    let t := linkedTables.head (by decide)
    let o := ExportOptions.strict
    let result := (o.exportOn linkedTables .mySql ⟨2024, 5, 6⟩).result
    t ∈ s.tables ∧
    t.links.partition (· ∈ s.foreignKeys t) = (s.foreignKeys t, s.dropped t) ∧
    s.tables ≠ [] ∧
    o.strictReferences = true ∧
    ((∃ table column target, result = .error (.unresolvedReference table column target)) ↔
      ∃ u ∈ unresolvedReferences linkedTables, u.kind = .missingTable) ∧
    result = .error (.unresolvedReference "a" "c_id" "c.id") ∧
    ∃ u, (unresolvedReferences linkedTables).find? (·.kind = .missingTable) = some u ∧
      "a" = u.table ∧ "c_id" = u.column ∧ "c.id" = u.target.table ++ "." ++ u.target.column := by
  intro s t o result
  have ht : t ∈ s.tables := by decide
  have hs : s.tables ≠ [] := by decide
  have hresult : result = .error (.unresolvedReference "a" "c_id" "c.id") := rfl
  obtain ⟨-, -, hlinks, hstrict⟩ := unresolved_agree linkedTables
  obtain ⟨hiff, hnames⟩ := hstrict hs o rfl .mySql ⟨2024, 5, 6⟩
  exact ⟨ht, (hlinks t ht).2, hs, rfl, hiff, hresult, hnames _ _ _ hresult⟩

end Review
end SchemaScript
