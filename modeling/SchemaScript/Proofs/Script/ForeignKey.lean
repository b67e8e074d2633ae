import SchemaScript.Script.Constraint

/-!
# SchemaScript.Proofs.Script.ForeignKey

Each foreign key that points at a table with columns is declared once, and nothing else is
(`foreignKeyTexts_eq`): in the body of its table for SQLite, by a statement of its own elsewhere.
-/

namespace SchemaScript

/-- The reference points at a table of the model that has columns. -/
def Reference.PointsInto (r : Reference) (tables : List Table) : Prop :=
  ∃ u ∈ tables, u.name = r.table ∧ u.columns ≠ []

instance (r : Reference) (tables : List Table) : Decidable (r.PointsInto tables) :=
  inferInstanceAs (Decidable (∃ u ∈ tables, u.name = r.table ∧ u.columns ≠ []))

/-- The reference of a column that is flagged as a foreign key, if it points into the model. -/
def Column.declared? (tables : List Table) (c : Column) : Option Reference :=
  match c.isForeignKey, c.reference with
  | true, some r => if r.PointsInto tables then some r else none
  | _, _ => none

/-- How a foreign key is written. -/
def foreignKeyText (p : Profile) (t : Table) (c : Column) (r : Reference) : String :=
  let clause := "FOREIGN KEY (" ++ p.quote c.name ++ ") REFERENCES " ++ p.quote r.table ++ "(" ++
    p.quote r.column ++ ")"
  if p.dialect = .sqlite then clause
  else "ALTER TABLE " ++ p.quote t.name ++ " ADD CONSTRAINT " ++
    p.quote ("FK_" ++ t.name ++ "_" ++ c.name) ++ " " ++ clause ++ ";"

theorem Table.mem_links {t : Table} {l : Link} :
    l ∈ t.links ↔
      l.column ∈ t.columns ∧ l.column.isForeignKey = true ∧ l.column.reference = some l.target := by
  obtain ⟨column, target⟩ := l
  simp only [links, List.mem_filterMap, Option.map_eq_some_iff, Link.mk.injEq, Column.foreignKey?]
  constructor
  · rintro ⟨c, hc, r, hr, rfl, rfl⟩
    cases hflag : c.isForeignKey with
    | false => simp [hflag] at hr
    | true => exact ⟨hc, rfl, by simpa [hflag] using hr⟩
  · rintro ⟨hc, hflag, hr⟩
    exact ⟨column, hc, target, by simpa [hflag] using hr, rfl, rfl⟩

namespace Scope

theorem mem_tables_ofTables {tables : List Table} {t : Table} :
    t ∈ (ofTables tables).tables ↔ t ∈ tables ∧ t.columns ≠ [] := by
  simp [ofTables, Table.isExportable]

theorem resolves_ofTables {tables : List Table} {r : Reference} :
    (ofTables tables).resolves r = true ↔ r.PointsInto tables := by
  simp only [resolves, hasTable, List.any_eq_true, beq_iff_eq, mem_tables_ofTables,
    Reference.PointsInto]
  constructor
  · rintro ⟨u, ⟨hu, hc⟩, hn⟩
    exact ⟨u, hu, hn, hc⟩
  · rintro ⟨u, hu, hn, hc⟩
    exact ⟨u, ⟨hu, hc⟩, hn⟩

/-- The foreign keys of a table are the declared references of its columns. -/
theorem foreignKeys_ofTables (tables : List Table) (t : Table) :
    (ofTables tables).foreignKeys t =
      t.columns.filterMap fun c => (c.declared? tables).map fun r => ⟨c, r⟩ := by
  rw [foreignKeys, Table.links, List.filter_filterMap]
  congr 1
  funext c
  simp only [Column.foreignKey?, Column.declared?]
  cases c.isForeignKey <;> cases c.reference with
  | none => rfl
  | some r =>
    by_cases h : r.PointsInto tables
    · simp [h, resolves_ofTables.mpr h]
    · simp [h, mt resolves_ofTables.mp h]

/-- Tables without columns do not matter to what is made from columns. -/
theorem flatMap_ofTables {α : Type} (tables : List Table) (f : Table → List α)
    (hf : ∀ t : Table, t.columns = [] → f t = []) :
    (ofTables tables).tables.flatMap f = tables.flatMap f := by
  induction tables with
  | nil => rfl
  | cons t tables ih =>
    cases ht : t.columns with
    | nil => simpa [ofTables, Table.isExportable, ht, hf t ht] using ih
    | cons c cs => simpa [ofTables, Table.isExportable, ht] using ih

end Scope

theorem clause_eq_text {p : Profile} (hs : p.dialect = .sqlite) (t : Table) (c : Column)
    (r : Reference) :
    (Constraint.foreignKey t.name c.name r).clause p = foreignKeyText p t c r := by
  rw [Constraint.clause_foreignKey]
  unfold foreignKeyText
  rw [if_pos hs]

theorem statement_eq_text {p : Profile} (hs : p.dialect ≠ .sqlite) (t : Table) (c : Column)
    (r : Reference) :
    (Constraint.foreignKey t.name c.name r).statement p = foreignKeyText p t c r := by
  unfold foreignKeyText Constraint.statement
  rw [if_neg hs, Constraint.clause_foreignKey]
  rfl

/-- SQLite declares foreign keys in the body of a table, the other dialects by statements. -/
theorem foreignKeyPlacement_of_mem {p : Profile} (hp : p ∈ Profile.all) :
    p.foreignKeyPlacement = if p.dialect = .sqlite then .tableBody else .alterTable := by
  simp only [Profile.all, List.mem_cons, List.not_mem_nil, or_false] at hp
  rcases hp with rfl | rfl | rfl | rfl | rfl <;> rfl

/-- One place declares the foreign keys of a table, and all of them. -/
theorem foreignKeyTexts_table {p : Profile} (hp : p ∈ Profile.all) (tables : List Table)
    (t : Table) :
    (p.bodyForeignKeys (.ofTables tables) t).map (·.clause p) ++
        (p.deferredForeignKeys (.ofTables tables) t).map (·.statement p) =
      t.columns.filterMap fun c => (c.declared? tables).map (foreignKeyText p t c) := by
  have hplace := foreignKeyPlacement_of_mem hp
  simp only [Profile.bodyForeignKeys, Profile.deferredForeignKeys, Table.foreignKeyConstraints,
    Scope.foreignKeys_ofTables, hplace]
  by_cases hs : p.dialect = .sqlite
  · simp [hs, List.map_filterMap, Option.map_map, Function.comp_def, clause_eq_text hs]
  · simp [hs, List.map_filterMap, Option.map_map, Function.comp_def, statement_eq_text hs]

/-- The foreign keys of a script are the declared references of all columns, in order. Those of a
table are all declared in one way. -/
theorem foreignKeyTexts_eq {p : Profile} (hp : p ∈ Profile.all) (tables : List Table) :
    let s := Scope.ofTables tables
    s.tables.flatMap (fun t => (p.bodyForeignKeys s t).map (·.clause p) ++
        (p.deferredForeignKeys s t).map (·.statement p)) =
      tables.flatMap (fun t =>
        t.columns.filterMap fun c => (c.declared? tables).map (foreignKeyText p t c)) ∧
    ∀ t, if p.dialect = .sqlite then p.deferredForeignKeys s t = []
      else p.bodyForeignKeys s t = [] := by
  intro s
  constructor
  · simp only [s, foreignKeyTexts_table hp]
    exact Scope.flatMap_ofTables tables _ fun t ht => by simp [ht]
  · intro t
    have hplace := foreignKeyPlacement_of_mem hp
    by_cases hs : p.dialect = .sqlite
    · simp [hs, Profile.deferredForeignKeys, hplace]
    · simp [hs, Profile.bodyForeignKeys, hplace]

/-- References forward, to the own table, to a table without columns and to no table at all, and a
reference that is not flagged. -/
def linkedTables : List Table :=
  let column (name : String) (flag : Bool) (target : String) : Column :=
    ⟨name, none, false, flag, none, false, none, some ⟨target, "id", .manyToOne⟩⟩
  [.withColumns "a" [column "b_id" true "b", column "a_id" true "a", column "c_id" true "c",
      column "d_id" true "d", column "x_id" false "b"],
    .withColumns "c" [],
    .withColumns "b" [column "a_id" true "a", .untyped "id"]]

theorem foreignKeyTexts_linkedTables :
    let p := Profile.mySql
    let s := Scope.ofTables linkedTables
    p ∈ Profile.all ∧
    s.tables.flatMap (fun t => (p.bodyForeignKeys s t).map (·.clause p) ++
        (p.deferredForeignKeys s t).map (·.statement p)) =
      linkedTables.flatMap (fun t =>
        t.columns.filterMap fun c =>
          (c.declared? linkedTables).map (foreignKeyText p t c)) ∧
    ∀ t, if p.dialect = .sqlite then p.deferredForeignKeys s t = []
      else p.bodyForeignKeys s t = [] :=
  ⟨by decide, foreignKeyTexts_eq (by decide) linkedTables⟩

end SchemaScript
