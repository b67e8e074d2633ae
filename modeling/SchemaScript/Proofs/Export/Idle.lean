import SchemaScript.Proofs.Export.Outcome
import SchemaScript.Proofs.Model.Idle
import SchemaScript.Proofs.Script.Share

/-!
# SchemaScript.Proofs.Export.Idle

Entries without meaning do not change what is exported (`idle_entries_not_exported`): all that is
generated for a model is generated for its effective model.
-/

namespace SchemaScript

variable (kinds : Bool)

/-! ## Columns and tables -/

@[simp]
theorem Reference.table_effective (r : Reference) : (r.effective kinds).table = r.table := by
  cases kinds <;> rfl

@[simp]
theorem Reference.column_effective (r : Reference) : (r.effective kinds).column = r.column := by
  cases kinds <;> rfl

namespace Column

variable (c : Column)

@[simp]
theorem name_effective : (c.effective kinds).name = c.name := rfl

@[simp]
theorem dataType_effective : (c.effective kinds).dataType = c.dataType := rfl

@[simp]
theorem isPrimaryKey_effective : (c.effective kinds).isPrimaryKey = c.isPrimaryKey := rfl

@[simp]
theorem isIntegerTyped_effective : (c.effective kinds).isIntegerTyped = c.isIntegerTyped := rfl

/-- Only columns apart from the key count as unique. -/
theorem isUnique_effective :
    ((c.effective kinds).isUnique && !(c.effective kinds).isPrimaryKey) =
      (c.isUnique && !c.isPrimaryKey) := by
  simp [effective]

@[simp]
theorem isRequired_effective : (c.effective kinds).isRequired = c.isRequired := by
  have heffective : (c.effective kinds).isRequired =
      ((if c.isRequired then some false else none) == some false || c.isPrimaryKey) := rfl
  rw [heffective]
  cases h : c.isRequired with
  | true => rfl
  | false =>
    rw [isRequired, Bool.or_eq_false_iff] at h
    rw [h.2]
    rfl

@[simp]
theorem givenDefault?_effective : (c.effective kinds).givenDefault? = c.givenDefault? := by
  simp [givenDefault?, effective, Option.filter_filter]

@[simp]
theorem foreignKey?_effective :
    (c.effective kinds).foreignKey? = c.foreignKey?.map (·.effective kinds) := by
  have heffective : (c.effective kinds).foreignKey? =
      if c.foreignKey?.isSome then c.foreignKey?.map (·.effective kinds) else none := rfl
  rw [heffective]
  cases c.foreignKey? <;> rfl

end Column

def Link.effective (l : Link) : Link :=
  ⟨l.column.effective kinds, l.target.effective kinds⟩

namespace Table

variable (t : Table)

@[simp]
theorem name_effective : (t.effective kinds).name = t.name := rfl

@[simp]
theorem columns_effective : (t.effective kinds).columns = t.columns.map (·.effective kinds) := rfl

@[simp]
theorem givenDescription?_effective :
    (t.effective kinds).givenDescription? = t.givenDescription? := by
  simp [givenDescription?, effective, Option.filter_filter]

@[simp]
theorem isExportable_effective : (t.effective kinds).isExportable = t.isExportable := by
  simp [isExportable]

@[simp]
theorem primaryKeyColumns_effective :
    (t.effective kinds).primaryKeyColumns = t.primaryKeyColumns.map (·.effective kinds) := by
  simp [primaryKeyColumns, List.filter_map, Function.comp_def]

@[simp]
theorem hasCompositeKey_effective : (t.effective kinds).hasCompositeKey = t.hasCompositeKey := by
  simp [hasCompositeKey]

theorem links_effective : (t.effective kinds).links = t.links.map (·.effective kinds) := by
  simp only [links, columns_effective, List.filterMap_map, List.map_filterMap, Function.comp_def,
    Column.foreignKey?_effective, Option.map_map, Link.effective]

end Table

/-! ## Scopes -/

namespace Scope

def effective (s : Scope) : Scope :=
  ⟨s.tables.map (·.effective kinds)⟩

variable (s : Scope) (t : Table)

@[simp]
theorem tables_effective : (s.effective kinds).tables = s.tables.map (·.effective kinds) := rfl

@[simp]
theorem isEmpty_effective : (s.effective kinds).isEmpty = s.isEmpty := by
  simp [isEmpty]

theorem ofTables_effective (tables : List Table) :
    ofTables (tables.map (·.effective kinds)) = (ofTables tables).effective kinds := by
  simp [ofTables, effective, List.filter_map, Function.comp_def]

@[simp]
theorem resolves_effective (r : Reference) :
    (s.effective kinds).resolves (r.effective kinds) = s.resolves r := by
  simp [resolves, hasTable, Function.comp_def]

theorem foreignKeys_effective :
    (s.effective kinds).foreignKeys (t.effective kinds) =
      (s.foreignKeys t).map (·.effective kinds) := by
  simp only [foreignKeys, Table.links_effective, List.filter_map, Function.comp_def, Link.effective,
    resolves_effective]

theorem unresolved_effective :
    (s.effective kinds).unresolved =
      s.unresolved.map fun e => (e.1.effective kinds, e.2.effective kinds) := by
  simp only [unresolved, dropped, tables_effective, List.flatMap_map, List.map_flatMap,
    Table.links_effective, List.filter_map, List.map_map, Function.comp_def, Link.effective,
    resolves_effective]

end Scope

/-! ## Relational scripts -/

section Relational

variable (p : Profile) (s : Scope) (t : Table)

theorem segments_effective (soleKey : Bool) (c : Column) :
    p.segments soleKey (c.effective kinds) = p.segments soleKey c := by
  have hunique : (p.inlineKeys && (c.effective kinds).isUnique &&
      !(c.effective kinds).isPrimaryKey) = (p.inlineKeys && c.isUnique && !c.isPrimaryKey) := by
    rw [Bool.and_assoc, Column.isUnique_effective, Bool.and_assoc]
  unfold Profile.segments
  rw [hunique, Column.isRequired_effective, Column.givenDefault?_effective]
  rfl

theorem columnLines_effective : p.columnLines (t.effective kinds) = p.columnLines t := by
  simp only [Profile.columnLines, Profile.tableSegments, Table.columns_effective, List.map_map,
    Function.comp_def, Table.hasCompositeKey_effective, Column.isPrimaryKey_effective,
    segments_effective]

theorem primaryKeyConstraint?_effective :
    (t.effective kinds).primaryKeyConstraint? = t.primaryKeyConstraint? := by
  unfold Table.primaryKeyConstraint?
  rw [Table.primaryKeyColumns_effective]
  cases t.primaryKeyColumns with
  | nil => rfl
  | cons c cs => simp [Function.comp_def]

theorem uniqueConstraints_effective :
    (t.effective kinds).uniqueConstraints = t.uniqueConstraints := by
  simp only [Table.uniqueConstraints, Table.columns_effective, List.filter_map, List.map_map,
    Function.comp_def, Column.isUnique_effective, Column.name_effective, Table.name_effective]

theorem clause_foreignKey_effective (table column : String) (r : Reference) :
    (Constraint.foreignKey table column (r.effective kinds)).clause p =
      (Constraint.foreignKey table column r).clause p := by
  rw [Constraint.clause_foreignKey, Constraint.clause_foreignKey, Reference.table_effective,
    Reference.column_effective]

theorem statement_foreignKey_effective (table column : String) (r : Reference) :
    (Constraint.foreignKey table column (r.effective kinds)).statement p =
      (Constraint.foreignKey table column r).statement p := by
  have htable : (Constraint.foreignKey table column (r.effective kinds)).table =
      (Constraint.foreignKey table column r).table := rfl
  have hname : (Constraint.foreignKey table column (r.effective kinds)).name =
      (Constraint.foreignKey table column r).name := rfl
  unfold Constraint.statement
  rw [clause_foreignKey_effective, htable, hname]

theorem foreignKeyConstraints_effective :
    (t.effective kinds).foreignKeyConstraints (s.effective kinds) =
      (s.foreignKeys t).map fun l =>
        .foreignKey t.name l.column.name (l.target.effective kinds) := by
  simp only [Table.foreignKeyConstraints, Scope.foreignKeys_effective, List.map_map,
    Function.comp_def, Link.effective, Column.name_effective, Table.name_effective]

theorem map_clause_effective :
    ((t.effective kinds).foreignKeyConstraints (s.effective kinds)).map (·.clause p) =
      (t.foreignKeyConstraints s).map (·.clause p) := by
  rw [foreignKeyConstraints_effective, Table.foreignKeyConstraints]
  simp only [List.map_map, Function.comp_def, clause_foreignKey_effective]

theorem map_statement_effective :
    ((t.effective kinds).foreignKeyConstraints (s.effective kinds)).map (·.statement p) =
      (t.foreignKeyConstraints s).map (·.statement p) := by
  rw [foreignKeyConstraints_effective, Table.foreignKeyConstraints]
  simp only [List.map_map, Function.comp_def, statement_foreignKey_effective]

theorem tableBody_effective :
    Statement.tableBody p (s.effective kinds) (t.effective kinds) = Statement.tableBody p s t := by
  have hkey : p.bodyKey? (t.effective kinds) = p.bodyKey? t := by
    simp only [Profile.bodyKey?, Table.hasCompositeKey_effective, primaryKeyConstraint?_effective]
  have hforeign : (p.bodyForeignKeys (s.effective kinds) (t.effective kinds)).map (·.clause p) =
      (p.bodyForeignKeys s t).map (·.clause p) := by
    by_cases hp : p.foreignKeyPlacement = .tableBody
    · simp only [Profile.bodyForeignKeys, hp, if_true, map_clause_effective]
    · simp only [Profile.bodyForeignKeys, hp, if_false]
  rw [Statement.tableBody, columnLines_effective, hkey, hforeign, Statement.tableBody]

theorem deferredConstraints_effective :
    (p.deferredConstraints (s.effective kinds) (t.effective kinds)).map (·.statement p) =
      (p.deferredConstraints s t).map (·.statement p) := by
  have hforeign :
      (p.deferredForeignKeys (s.effective kinds) (t.effective kinds)).map (·.statement p) =
        (p.deferredForeignKeys s t).map (·.statement p) := by
    by_cases hp : p.foreignKeyPlacement = .alterTable
    · simp only [Profile.deferredForeignKeys, hp, if_true, map_statement_effective]
    · simp only [Profile.deferredForeignKeys, hp, if_false]
  simp only [Profile.deferredConstraints, Profile.deferredKeys, Profile.deferredUniques,
    primaryKeyConstraint?_effective, uniqueConstraints_effective, List.map_append, hforeign]

theorem numberedColumns_effective :
    (t.effective kinds).numberedColumns = t.numberedColumns.map (·.effective kinds) := by
  unfold Table.numberedColumns
  rw [Table.hasCompositeKey_effective, Table.primaryKeyColumns_effective]
  split
  · rfl
  · simp only [List.filter_map, Function.comp_def, Column.isIntegerTyped_effective]

theorem sequencedColumns_effective :
    p.sequencedColumns (t.effective kinds) = (p.sequencedColumns t).map (·.effective kinds) := by
  unfold Profile.sequencedColumns
  rw [numberedColumns_effective]
  split <;> rfl

theorem share_effective : (s.effective kinds).share p (t.effective kinds) = s.share p t := by
  have hcreate : Statement.createTableText p (s.effective kinds) (t.effective kinds) =
      Statement.createTableText p s t := by
    unfold Statement.createTableText Statement.descriptionText Statement.tableText
    rw [Table.givenDescription?_effective, tableBody_effective, Table.name_effective]
  have hsequence (c : Column) :
      Statement.createSequenceText p (t.effective kinds) (c.effective kinds) =
        Statement.createSequenceText p t c := by
    unfold Statement.createSequenceText Statement.sequenceName
    rw [Table.name_effective, Column.name_effective]
  have htrigger (c : Column) :
      Statement.createTriggerText p (t.effective kinds) (c.effective kinds) =
        Statement.createTriggerText p t c := by
    unfold Statement.createTriggerText Statement.triggerName Statement.sequenceName
    rw [Table.name_effective, Column.name_effective]
  have hsequences := List.map_congr_left (l := p.sequencedColumns t) fun c _ => hsequence c
  have htriggers := List.map_congr_left (l := p.sequencedColumns t) fun c _ => htrigger c
  unfold Scope.share
  rw [hcreate, sequencedColumns_effective, deferredConstraints_effective, List.map_map,
    List.map_map]
  exact congrArg₂ (TableShare.mk _ · · _) hsequences htriggers

theorem scriptText_effective : (s.effective kinds).scriptText p = s.scriptText p := by
  rw [Scope.scriptText_eq, Scope.scriptText_eq, Scope.tables_effective, List.map_map]
  simp only [Function.comp_def, share_effective]

end Relational

/-! ## Shell scripts -/

section Shell

variable (s : Scope) (t : Table)

theorem fieldColumns_effective :
    Collection.fieldColumns (s.effective kinds) (t.effective kinds) =
      (Collection.fieldColumns s t).map (·.effective kinds) := by
  simp only [Collection.fieldColumns, Scope.foreignKeys_effective, Table.columns_effective,
    List.filter_map, List.any_map, Function.comp_def, Link.effective, Column.name_effective]

theorem ofColumn_effective (c : Column) :
    Property.ofColumn (c.effective kinds) = Property.ofColumn c := by
  simp only [Property.ofColumn, Column.givenDefault?_effective, Column.name_effective,
    Column.dataType_effective]

/-- Kinds of references are part of a collection. -/
theorem ofTable_effective :
    Collection.ofTable (s.effective false) (t.effective false) = Collection.ofTable s t := by
  simp only [Collection.ofTable, fieldColumns_effective, Scope.foreignKeys_effective,
    List.filter_map, List.map_map, Function.comp_def, Table.name_effective,
    Table.givenDescription?_effective, Column.isRequired_effective, Column.name_effective,
    Column.dataType_effective, ofColumn_effective]
  rfl

theorem shellText_effective : (s.effective false).shellText = s.shellText := by
  rw [Scope.shellText_eq, Scope.shellText_eq, Scope.tables_effective, List.map_map]
  simp only [Function.comp_def, ofTable_effective]

end Shell

/-! ## Exports -/

theorem generate_effective (s : Scope) {d : Dialect} (hd : kinds = true → d.isRelational = true) :
    ((s.effective kinds).generate d).1 = (s.generate d).1 := by
  unfold Scope.generate
  unfold Dialect.isRelational at hd
  cases hp : d.profile? with
  | some p => exact scriptText_effective kinds p s
  | none =>
    -- Shell scripts tell the kinds of references.
    cases kinds with
    | false => exact shellText_effective s
    | true =>
      rw [hp] at hd
      cases hd rfl

theorem result_effective (o : ExportOptions) (tables : List Table) {d : Dialect}
    (hd : kinds = true → d.isRelational = true) (date : Date) :
    (o.exportOn (tables.map (·.effective kinds)) d date).result =
      (o.exportOn tables d date).result := by
  have hartifact : o.artifact ((Scope.ofTables tables).effective kinds) d date =
      o.artifact (.ofTables tables) d date := by
    simp only [ExportOptions.artifact, generate_effective kinds _ hd]
  rw [ExportOptions.result_eq, ExportOptions.result_eq, Scope.ofTables_effective,
    Scope.unresolved_effective, Scope.isEmpty_effective, List.isEmpty_map, hartifact]
  cases o.strictReferences with
  | false => rfl
  | true =>
    cases (Scope.ofTables tables).unresolved with
    | nil => rfl
    | cons e rest =>
      have herror : ExportOptions.unresolvedError (e.1.effective kinds) (e.2.effective kinds) =
          ExportOptions.unresolvedError e.1 e.2 := by
        simp [ExportOptions.unresolvedError, Link.effective]
      simp only [List.map_cons, herror]

/-- Both models are exported to the same content, or fail with the same error. -/
structure SameExport (d : Dialect) (tables tables' : List Table) : Prop where
  content : ((Scope.ofTables tables).generate d).1 = ((Scope.ofTables tables').generate d).1
  result : ∀ (o : ExportOptions) (date : Date),
    (o.exportOn tables d date).result = (o.exportOn tables' d date).result

theorem sameExport_of_sameMeaning {d : Dialect} (hd : kinds = true → d.isRelational = true)
    {tables tables' : List Table} (h : SameMeaning kinds tables tables') :
    SameExport d tables tables' where
  content := by
    rw [← generate_effective kinds (.ofTables tables) hd, ← Scope.ofTables_effective,
      h.effective_eq, Scope.ofTables_effective, generate_effective kinds (.ofTables tables') hd]
  result o date := by
    rw [← result_effective kinds o tables hd, h.effective_eq, result_effective kinds o tables' hd]

/-- Models that differ in idle entries only have the same exports. For relational dialects the kinds
of references are idle too. -/
theorem idle_entries_not_exported (tables tables' : List Table) :
    (SameMeaning false tables tables' → ∀ d, SameExport d tables tables') ∧
    (SameMeaning true tables tables' → ∀ d : Dialect, d.isRelational = true →
      SameExport d tables tables') :=
  ⟨fun h _ => sameExport_of_sameMeaning false nofun h,
    fun h _ hd => sameExport_of_sameMeaning true (fun _ => hd) h⟩

/-- A table with idle entries of all sorts. -/
def annotatedTable : Table :=
  ⟨"a", some " ", [
    ⟨"id", none, true, true, some true, true, none, none⟩,
    ⟨"n", none, false, false, some true, false, some "", some ⟨"b", "id", .oneToOne⟩⟩,
    ⟨"b_id", none, false, true, none, false, none, some ⟨"b", "id", .oneToOne⟩⟩]⟩

/-- The table without them, and with a reference of any kind. -/
def plainTable (kind : Cardinality) : Table :=
  ⟨"a", none, [
    ⟨"id", none, true, false, none, false, none, none⟩,
    ⟨"n", none, false, false, none, false, none, none⟩,
    ⟨"b_id", none, false, true, none, false, none, some ⟨"b", "id", kind⟩⟩]⟩

theorem idle_entries_not_exported_annotatedTable :
    let target := Table.withColumns "b" [.untyped "id"]
    let tables := [annotatedTable, target]
    let plain := [plainTable .oneToOne, target]
    let other := [plainTable .manyToMany, target]
    SameMeaning false tables plain ∧ SameExport .mongoDb tables plain ∧
    SameMeaning true tables other ∧ Dialect.oracle.isRelational = true ∧
    SameExport .oracle tables other := by
  intro target tables plain other
  have hplain : SameMeaning false tables plain := sameMeaning_iff.mpr (by decide)
  have hother : SameMeaning true tables other := sameMeaning_iff.mpr (by decide)
  obtain ⟨hall, -⟩ := idle_entries_not_exported tables plain
  obtain ⟨-, hrelational⟩ := idle_entries_not_exported tables other
  exact ⟨hplain, hall hplain .mongoDb, hother, rfl, hrelational hother .oracle rfl⟩

end SchemaScript
