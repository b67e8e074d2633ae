import SchemaScript.Proofs.Export.Clean
import SchemaScript.Proofs.Review.MissingColumn

/-!
# SchemaScript.Proofs.Export.Dropped

Which of the references that a review reports are dropped by an export. An export keeps a foreign
key if its target table is exported (`Scope.declares_iff`), whatever the columns of that table are,
so that of the findings only those about missing tables are dropped. Those about missing columns are
declared, in every dialect (`findings_dropped_iff`).
-/

namespace SchemaScript

theorem Dialect.mem_of_profile? {d : Dialect} {p : Profile} (h : d.profile? = some p) :
    p ∈ Profile.all := by
  cases d <;> cases h <;> decide

namespace Scope

/-- An export keeps the foreign key of the table: a relational script declares it, or else the
collection of the table has it among its references. -/
def Declares (s : Scope) (t : Table) (l : Link) : Option Profile → Prop
  | some p =>
    .foreignKey t.name l.column.name l.target ∈ p.bodyForeignKeys s t ++ p.deferredForeignKeys s t
  | none => Collection.ofLink l ∈ (Collection.ofTable s t).references

instance (s : Scope) (t : Table) (l : Link) : DecidablePred (s.Declares t l)
  | some p => inferInstanceAs (Decidable (.foreignKey t.name l.column.name l.target ∈
      p.bodyForeignKeys s t ++ p.deferredForeignKeys s t))
  | none => inferInstanceAs (Decidable
      (Collection.ofLink l ∈ (Collection.ofTable s t).references))

/-- The foreign keys of exported tables that the export does not keep, with their tables. -/
def undeclared (s : Scope) (d : Dialect) : List (Table × Link) :=
  s.tables.flatMap fun t =>
    (t.links.filter fun l => ¬ s.Declares t l d.profile?).map fun l => (t, l)

variable {s : Scope} {t : Table} {l : Link}

theorem foreignKeyConstraints_eq {p : Profile} (hp : p ∈ Profile.all) :
    p.bodyForeignKeys s t ++ p.deferredForeignKeys s t = t.foreignKeyConstraints s := by
  rw [Profile.bodyForeignKeys, Profile.deferredForeignKeys, foreignKeyPlacement_of_mem hp]
  by_cases hs : p.dialect = .sqlite <;> simp [hs]

/-- What is made from the foreign keys that resolve has that of the link if the link resolves. -/
theorem mem_map_foreignKeys {α : Type} {f : Link → α} (hl : l ∈ t.links)
    (hf : ∀ m, f m = f l → m.target = l.target) :
    f l ∈ (s.foreignKeys t).map f ↔ s.resolves l.target = true := by
  rw [List.mem_map]
  constructor
  · rintro ⟨m, hm, hml⟩
    rw [← hf m hml]
    exact (List.mem_filter.mp hm).2
  · intro hresolves
    exact ⟨l, List.mem_filter.mpr ⟨hl, hresolves⟩, rfl⟩

theorem declares_iff (d : Dialect) (hl : l ∈ t.links) :
    s.Declares t l d.profile? ↔ s.resolves l.target = true := by
  cases hd : d.profile? with
  | some p =>
    rw [Declares, foreignKeyConstraints_eq (Dialect.mem_of_profile? hd)]
    refine mem_map_foreignKeys hl fun m hm => ?_
    injection hm
  | none =>
    refine mem_map_foreignKeys hl fun m hm => ?_
    obtain ⟨-, htable, hcolumn, hkind⟩ := CollectionReference.mk.inj hm
    cases hm : m.target
    cases hl : l.target
    simp_all

/-- Exports to all dialects drop the same foreign keys. -/
theorem undeclared_eq (d : Dialect) : s.undeclared d = s.unresolved := by
  have hfilter (t : Table) : t.links.filter (fun l => ¬ s.Declares t l d.profile?) = s.dropped t :=
    List.filter_congr fun l hl => by simp [declares_iff d hl]
  simp only [undeclared, unresolved, hfilter]

end Scope

namespace Review

variable {tables : List Table}

/-- What is missing is the column if and only if the export keeps the foreign key. -/
theorem declares_iff_missingColumn (d : Dialect) {s : Scope} {t : Table} {l : Link}
    (hl : l ∈ t.links) {kind : UnresolvedKind} (h : missing? s.tables l.target = some kind) :
    s.Declares t l d.profile? ↔ kind = .missingColumn := by
  have hmissing := missing?_eq_missingTable (s := s) (r := l.target)
  rw [Scope.declares_iff d hl]
  cases kind with
  | missingTable => simp [hmissing.mp h]
  | missingColumn =>
    have hresolves : s.resolves l.target ≠ false := fun hr => by
      rw [hmissing.mpr hr] at h
      cases h
    simpa using hresolves

/-- The findings are the foreign keys that are not kept if and only if no column is missing. -/
theorem findings_undeclared_iff (tables : List Table) (d : Dialect) :
    (unresolvedReferences tables).map (fun u => (u.table, u.column, u.target)) =
        ((Scope.ofTables tables).undeclared d).map
          (fun e => (e.1.name, e.2.column.name, e.2.target)) ↔
      ∀ u ∈ unresolvedReferences tables, u.kind = .missingTable := by
  have hfilter := filter_unresolvedReferences tables
  rw [← Scope.undeclared_eq d] at hfilter
  constructor
  · intro h
    have hlength := congrArg List.length h
    have hkept := congrArg List.length hfilter
    rw [List.length_map, List.length_map] at hlength
    rw [List.length_map, ← hlength, List.length_filter_eq_length_iff] at hkept
    simpa using hkept
  · intro h
    have hall : (unresolvedReferences tables).filter (·.kind = .missingTable) =
        unresolvedReferences tables := List.filter_eq_self.mpr (by simpa using h)
    rw [← hall, hfilter, List.map_map]
    rfl

end Review

/-- What an export that is not strict drops. It is what the review reports about missing tables,
and none of what it reports about missing columns, so that the two are the same if and only if no
column is missing. If the name of the target table is unique, a foreign key that is kept names a
column of that table if and only if the review does not report it. -/
theorem findings_dropped_iff (tables : List Table) (hs : (Scope.ofTables tables).tables ≠ [])
    (d : Dialect) :
    let s := Scope.ofTables tables
    let findings := Review.unresolvedReferences tables
    (∀ (o : ExportOptions) (date : Date), o.strictReferences = false →
      (o.exportOn tables d date).result = .ok (o.artifact s d date)) ∧
    findings.filter (·.kind = .missingTable) =
      (s.undeclared d).map (fun e => ⟨e.1.name, e.2.column.name, e.2.target, .missingTable⟩) ∧
    (∀ u ∈ findings, u.kind = .missingColumn → ∃ t ∈ s.tables, ∃ l ∈ t.links,
      u = ⟨t.name, l.column.name, l.target, .missingColumn⟩ ∧ s.Declares t l d.profile?) ∧
    (findings.map (fun u => (u.table, u.column, u.target)) =
        (s.undeclared d).map (fun e => (e.1.name, e.2.column.name, e.2.target)) ↔
      ∀ u ∈ findings, u.kind = .missingTable) ∧
    ∀ t ∈ s.tables, ∀ l ∈ t.links, s.Declares t l d.profile? →
      ∃ u ∈ s.tables, u.name = l.target.table ∧
        ((∀ v ∈ s.tables, v.name = l.target.table → v = u) →
          ((∃ c ∈ u.columns, c.name = l.target.column) ↔
            ⟨t.name, l.column.name, l.target, .missingColumn⟩ ∉ findings)) := by
  intro s findings
  refine ⟨fun o date ho => ?_, ?_, fun u hu hkind => ?_, Review.findings_undeclared_iff tables d,
    fun t ht l hl hdeclares => ?_⟩
  · rw [ExportOptions.result_exportOn hs, ho]
  · rw [Scope.undeclared_eq]
    exact Review.filter_unresolvedReferences tables
  · obtain ⟨t, ht, l, hl, hmissing, hfinding⟩ := Review.mem_unresolvedReferences.mp hu
    refine ⟨t, ht, l, hl, hkind ▸ hfinding, ?_⟩
    exact (Review.declares_iff_missingColumn d hl hmissing).mpr hkind
  · have hresolves := (Scope.declares_iff d hl).mp hdeclares
    obtain ⟨u, hu, hname⟩ : ∃ u ∈ s.tables, u.name = l.target.table := by
      simpa [Scope.resolves, Scope.hasTable] using hresolves
    refine ⟨u, hu, hname, fun hsole => ?_⟩
    -- The finding says what is missing for the target, whichever foreign key it is about.
    have hreported : ⟨t.name, l.column.name, l.target, .missingColumn⟩ ∈ findings ↔
        Review.missing? s.tables l.target = some .missingColumn := by
      rw [Review.mem_unresolvedReferences]
      constructor
      · rintro ⟨t', -, l', -, hmissing, hfinding⟩
        injection hfinding with _ _ htarget
        rwa [← htarget] at hmissing
      · intro hmissing
        exact ⟨t, ht, l, hl, hmissing, rfl⟩
    rw [hreported, Review.missing?_eq_missingColumn hu hname hsole]
    simp

/-- A reference to a column that its table does not have, and one to a table that does not exist. -/
def mailTables : List Table :=
  [.withColumns "user" [.untyped "id"],
    .withColumns "mail" [(Column.untyped "sender").references "user" "address" .manyToOne,
      (Column.untyped "folder").references "folder" "id" .manyToOne]]

theorem findings_dropped_iff_mailTables :
    let s := Scope.ofTables mailTables
    let o := ExportOptions.standard
    let t := mailTables.getLast (by decide)
    let l : Link := ⟨(Column.untyped "sender").references "user" "address" .manyToOne,
      ⟨"user", "address", .manyToOne⟩⟩
    s.tables ≠ [] ∧ o.strictReferences = false ∧ t ∈ s.tables ∧ l ∈ t.links ∧
    s.Declares t l Dialect.oracle.profile? ∧
    (o.exportOn mailTables .oracle ⟨2024, 5, 6⟩).result =
      .ok (o.artifact s .oracle ⟨2024, 5, 6⟩) ∧
    ∃ u ∈ s.tables, u.name = "user" ∧ (∀ v ∈ s.tables, v.name = "user" → v = u) ∧
      ((∃ c ∈ u.columns, c.name = "address") ↔
        ⟨"mail", "sender", l.target, .missingColumn⟩ ∉ Review.unresolvedReferences mailTables) := by
  intro s o t l
  have hs : s.tables ≠ [] := by decide
  have ht : t ∈ s.tables := by decide
  have hl : l ∈ t.links := by decide
  have hdeclares : s.Declares t l Dialect.oracle.profile? := by decide
  have hsole : ∀ u ∈ s.tables, u.name = "user" → ∀ v ∈ s.tables, v.name = "user" → v = u := by
    decide
  obtain ⟨hexport, -, -, -, htarget⟩ := findings_dropped_iff mailTables hs .oracle
  obtain ⟨u, hu, hname, hreported⟩ := htarget t ht l hl hdeclares
  exact ⟨hs, rfl, ht, hl, hdeclares, hexport o ⟨2024, 5, 6⟩ rfl, u, hu, hname,
    hsole u hu hname, hreported (hsole u hu hname)⟩

/-- Both references are reported, and every export keeps the first one and drops the second. -/
theorem missing_column_declared :
    let s := Scope.ofTables mailTables
    let sender : Reference := ⟨"user", "address", .manyToOne⟩
    let folder : Reference := ⟨"folder", "id", .manyToOne⟩
    Review.unresolvedReferences mailTables =
      [⟨"mail", "sender", sender, .missingColumn⟩, ⟨"mail", "folder", folder, .missingTable⟩] ∧
    (s.tables.map (·.name)).Nodup ∧
    (∀ u ∈ s.tables, u.name = "user" → ∀ c ∈ u.columns, c.name ≠ "address") ∧
    ∀ d : Dialect, (s.undeclared d).map (fun e => (e.1.name, e.2.column.name, e.2.target)) =
      [("mail", "folder", folder)] := by
  refine ⟨by decide, by decide, by decide, fun d => ?_⟩
  cases d <;> decide

end SchemaScript
