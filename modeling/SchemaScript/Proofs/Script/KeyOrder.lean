import Mathlib.Data.List.Nodup
import SchemaScript.Proofs.Export.Clean
import SchemaScript.Proofs.Review.Tables
import SchemaScript.Proofs.Script.PrimaryKey
import SchemaScript.Proofs.Script.Statements

/-!
# SchemaScript.Proofs.Script.KeyOrder

Where a script declares a key, and where it adds the foreign keys that point at it.

Dialects that declare keys on the lines of columns have done so before the first foreign key. The
others write the constraints of one table behind those of another, so that a key is there in time
if and only if its table does not come later than the table of the foreign key
(`keys_precede_foreignKeys`).

* `declaresKey_createTable`, `exists_deferred_declaresKey`: the two places of a key.
* `split_foreignKey`: what stands in front of the statement of a foreign key.
* `exists_declaresKey_iff`: when a key of a table is among that.
-/

namespace SchemaScript

/-- Foreign keys can point at the column: it is the whole primary key, or it is unique and no part
of the primary key. -/
def Table.HasKey (t : Table) (column : String) : Prop :=
  ∃ c ∈ t.columns, c.name = column ∧
    (t.primaryKeyColumns = [c] ∨ c.isUnique = true ∧ c.isPrimaryKey = false)

instance (t : Table) (column : String) : Decidable (t.HasKey column) :=
  inferInstanceAs (Decidable (∃ c ∈ t.columns, c.name = column ∧
    (t.primaryKeyColumns = [c] ∨ c.isUnique = true ∧ c.isPrimaryKey = false)))

namespace Statement

/-- The statement declares the column of the table to be its primary key or to be unique; where it
makes the table, the line of the column does. -/
def DeclaresKey (p : Profile) (table column : String) : Statement → Prop
  | .createTable t => t.name = table ∧
      ∃ c ∈ p.columnsWith t "PRIMARY KEY" ++ p.columnsWith t "UNIQUE", c.name = column
  | .addConstraint (.primaryKey t columns) => t = table ∧ columns = [column]
  | .addConstraint (.unique t c) => t = table ∧ c = column
  | _ => False

instance (p : Profile) (table column : String) : DecidablePred (DeclaresKey p table column)
  | .createTable t => inferInstanceAs (Decidable (t.name = table ∧
      ∃ c ∈ p.columnsWith t "PRIMARY KEY" ++ p.columnsWith t "UNIQUE", c.name = column))
  | .addConstraint (.primaryKey t columns) =>
    inferInstanceAs (Decidable (t = table ∧ columns = [column]))
  | .addConstraint (.unique t c) => inferInstanceAs (Decidable (t = table ∧ c = column))
  | .addConstraint (.foreignKey _ _ _) => inferInstanceAs (Decidable False)
  | .header _ => inferInstanceAs (Decidable False)
  | .createSequence _ _ => inferInstanceAs (Decidable False)
  | .createTrigger _ _ => inferInstanceAs (Decidable False)

end Statement

/-! ## Places in lists -/

section Places

variable {α β : Type}

theorem exists_of_append_eq {xs ys before after : List α} {x : α} (hx : x ∉ xs)
    (h : xs ++ ys = before ++ x :: after) :
    ∃ own, before = xs ++ own ∧ ys = own ++ x :: after := by
  rcases List.append_eq_append_iff.mp h with ⟨own, hbefore, hys⟩ | ⟨own, hxs, hafter⟩
  · exact ⟨own, hbefore, hys⟩
  · cases own with
    | nil => exact ⟨[], by simp [hxs], by simpa using hafter.symm⟩
    | cons y own =>
      obtain ⟨rfl, -⟩ := List.cons.inj hafter
      exact absurd (by simp [hxs]) hx

theorem exists_of_flatMap_eq {f : α → List β} {as : List α} {before after : List β} {x : β}
    (h : as.flatMap f = before ++ x :: after) :
    ∃ front a back own rest, as = front ++ a :: back ∧ f a = own ++ x :: rest ∧
      before = front.flatMap f ++ own := by
  induction as generalizing before with
  | nil => simp at h
  | cons a as ih =>
    have hlater : ∀ own, before = f a ++ own → as.flatMap f = own ++ x :: after →
        ∃ front a' back own' rest, a :: as = front ++ a' :: back ∧ f a' = own' ++ x :: rest ∧
          before = front.flatMap f ++ own' := by
      intro own hbefore hown
      obtain ⟨front, a', back, own', rest, rfl, ha', rfl⟩ := ih hown
      exact ⟨a :: front, a', back, own', rest, rfl, ha', by simp [hbefore]⟩
    rw [List.flatMap_cons] at h
    rcases List.append_eq_append_iff.mp h with ⟨own, hbefore, hown⟩ | ⟨own, ha, hafter⟩
    · exact hlater own hbefore hown
    · cases own with
      | nil => exact hlater [] (by simpa using ha.symm) (by simpa using hafter.symm)
      | cons y own =>
        obtain ⟨rfl, -⟩ := List.cons.inj hafter
        exact ⟨[], a, as, before, own, rfl, ha, by simp⟩

end Places

/-! ## Places of a key -/

section Keys

variable {p : Profile} {s : Scope} {t : Table} {table column : String}

theorem keyPlacement_of_inlineKeys_eq_false (hp : p ∈ Profile.all) (h : p.inlineKeys = false) :
    p.keyPlacement = .alterTable := by
  rcases keyPlacement_of_mem hp with hcolumn | halter
  · simp [Profile.inlineKeys, hcolumn] at h
  · exact halter

theorem declaresKey_createTable (hp : p ∈ Profile.all) (h : p.inlineKeys = true)
    (hkey : t.HasKey column) : (Statement.createTable t).DeclaresKey p t.name column := by
  obtain ⟨c, hc, hname, hsole | hunique⟩ := hkey
  · refine ⟨rfl, c, List.mem_append_left _ ((Profile.mem_columnsWith hp).mpr ⟨hc, ?_⟩), hname⟩
    have hmem : c ∈ t.primaryKeyColumns := by simp [hsole]
    refine (Profile.primaryKey_mem_marks hp).mpr ⟨h, ?_⟩
    simpa [Table.hasCompositeKey, hsole] using (List.mem_filter.mp hmem).2
  · refine ⟨rfl, c, List.mem_append_right _ ((Profile.mem_columnsWith hp).mpr ⟨hc, ?_⟩), hname⟩
    exact (Profile.unique_mem_marks hp).mpr ⟨h, hunique⟩

theorem exists_deferred_declaresKey (h : p.keyPlacement = .alterTable) (hkey : t.HasKey column) :
    ∃ k ∈ p.deferredKeys t ++ p.deferredUniques t,
      (Statement.addConstraint k).DeclaresKey p t.name column := by
  obtain ⟨c, hc, rfl, hsole | hunique⟩ := hkey
  · refine ⟨.primaryKey t.name [c.name], List.mem_append_left _ ?_, rfl, rfl⟩
    simp [deferredKeys_eq, h, hsole]
  · refine ⟨.unique t.name c.name, List.mem_append_right _ ?_, rfl, rfl⟩
    rw [Profile.deferredUniques, if_pos h, Table.uniqueConstraints]
    exact List.mem_map.mpr ⟨c, List.mem_filter.mpr ⟨hc, by simp [hunique]⟩, rfl⟩

/-- Without keys on the lines of columns, keys are not declared before the constraints. -/
theorem not_declaresKey_of_mem_definitions (hp : p ∈ Profile.all) (h : p.inlineKeys = false)
    {st : Statement} (hst : st ∈ s.definitions p) : ¬ st.DeclaresKey p table column := by
  intro hdeclares
  simp only [Scope.definitions, List.mem_append, List.mem_map] at hst
  rcases hst with ((⟨header, -, rfl⟩ | ⟨t, -, rfl⟩) | ⟨n, -, rfl⟩) | ⟨n, -, rfl⟩
  · exact hdeclares
  · obtain ⟨-, c, hc, -⟩ := hdeclares
    rcases List.mem_append.mp hc with hc | hc
    · have hmark := (Profile.primaryKey_mem_marks hp).mp ((Profile.mem_columnsWith hp).mp hc).2
      cases h.symm.trans hmark.1
    · have hmark := (Profile.unique_mem_marks hp).mp ((Profile.mem_columnsWith hp).mp hc).2
      cases h.symm.trans hmark.1
  · exact hdeclares
  · exact hdeclares

theorem table_of_declaresKey {k : Constraint}
    (h : (Statement.addConstraint k).DeclaresKey p table column) : k.table = table := by
  cases k with
  | primaryKey t columns => exact h.1
  | unique t c => exact h.1
  | foreignKey t c target => cases h

theorem table_of_mem_deferredConstraints {k : Constraint} (h : k ∈ p.deferredConstraints s t) :
    k.table = t.name := by
  simp only [Profile.deferredConstraints, List.mem_append] at h
  rcases h with (h | h) | h
  · rw [deferredKeys_eq] at h
    split at h
    · rw [List.mem_singleton.mp h]; rfl
    · cases h
  · rw [Profile.deferredUniques] at h
    split at h
    · obtain ⟨c, -, rfl⟩ := List.mem_map.mp h
      rfl
    · cases h
  · obtain ⟨l, -, rfl⟩ := Profile.mem_foreignKeyConstraints (List.mem_append_right _ h)
    rfl

end Keys

/-! ## What stands in front of a foreign key -/

section Split

variable {p : Profile} {s : Scope} {table column : String} {target : Reference}
  {before after : List Statement}

/-- In front of a foreign key of the table `t` stand the definitions and constraints `earlier` of
`t` and the tables before it, among them all keys of these tables. -/
theorem split_foreignKey
    (h : s.statements p =
      before ++ .addConstraint (.foreignKey table column target) :: after) :
    ∃ (front : List Table) (t : Table) (back : List Table) (earlier : List Constraint),
      s.tables = front ++ t :: back ∧
      (∃ l ∈ t.links, Constraint.foreignKey table column target =
        .foreignKey t.name l.column.name l.target) ∧
      before = s.definitions p ++ earlier.map .addConstraint ∧
      (∀ k ∈ earlier, ∃ v ∈ front ++ [t], k ∈ p.deferredConstraints s v) ∧
      ∀ v ∈ front ++ [t], ∀ k ∈ p.deferredKeys v ++ p.deferredUniques v, k ∈ earlier := by
  rw [Scope.statements_eq] at h
  obtain ⟨before, rfl, hconstraints⟩ :=
    exists_of_append_eq (by simp [Scope.definitions]) h
  obtain ⟨ks, ls, hks, rfl, hls⟩ := List.map_eq_append_iff.mp hconstraints
  obtain ⟨k, ls, rfl, hk, -⟩ := List.map_eq_cons_iff.mp hls
  cases hk
  obtain ⟨front, t, back, own, rest, htables, ht, rfl⟩ := exists_of_flatMap_eq hks
  have hkeys : .foreignKey table column target ∉ p.deferredKeys t ++ p.deferredUniques t := by
    rw [deferredKeys_eq, Profile.deferredUniques, Table.uniqueConstraints]
    intro hmem
    rcases List.mem_append.mp hmem with hmem | hmem <;> split at hmem <;> simp at hmem
  obtain ⟨own', hown, hforeign⟩ := exists_of_append_eq hkeys ht
  have hmem : .foreignKey table column target ∈ p.deferredForeignKeys s t := by simp [hforeign]
  refine ⟨front, t, back, _, htables,
    Profile.mem_foreignKeyConstraints (List.mem_append_right _ hmem), rfl, ?_, ?_⟩
  · intro k hk
    rcases List.mem_append.mp hk with hk | hk
    · obtain ⟨v, hv, hk⟩ := List.mem_flatMap.mp hk
      exact ⟨v, by simp [hv], hk⟩
    · exact ⟨t, by simp, by simp [ht, hk]⟩
  · intro v hv k hk
    rcases List.mem_append.mp hv with hv | hv
    · refine List.mem_append_left _ (List.mem_flatMap.mpr ⟨v, hv, ?_⟩)
      exact List.mem_append_left _ hk
    · obtain rfl := List.mem_singleton.mp hv
      rw [hown]
      exact List.mem_append_right _ (List.mem_append_left _ hk)

theorem exists_declaresKey_iff (hp : p ∈ Profile.all) {front back : List Table} {t u : Table}
    {earlier : List Constraint} (htables : s.tables = front ++ t :: back)
    (hdistinct : (s.tables.map (·.name)).Nodup)
    (htable : ∀ k ∈ earlier, ∃ v ∈ front ++ [t], k ∈ p.deferredConstraints s v)
    (hkeys : ∀ v ∈ front ++ [t], ∀ k ∈ p.deferredKeys v ++ p.deferredUniques v, k ∈ earlier)
    (hu : u ∈ s.tables) (hkey : u.HasKey column) :
    (∃ st ∈ s.definitions p ++ earlier.map .addConstraint, st.DeclaresKey p u.name column) ↔
      p.inlineKeys = true ∨ u ∈ front ++ [t] := by
  cases hinline : p.inlineKeys with
  | true =>
    refine ⟨fun _ => .inl rfl,
      fun _ => ⟨.createTable u, ?_, declaresKey_createTable hp hinline hkey⟩⟩
    simp [Scope.definitions, hu]
  | false =>
    constructor
    · rintro ⟨st, hst, hdeclares⟩
      right
      rcases List.mem_append.mp hst with hst | hst
      · exact absurd hdeclares (not_declaresKey_of_mem_definitions hp hinline hst)
      · obtain ⟨k, hk, rfl⟩ := List.mem_map.mp hst
        -- The table of the constraint has the name of `u`, and names are distinct.
        obtain ⟨v, hv, hkv⟩ := htable k hk
        have hname : v.name = u.name := by
          rw [← table_of_mem_deferredConstraints hkv, table_of_declaresKey hdeclares]
        have hvs : v ∈ s.tables := by
          rw [htables, List.append_cons]
          exact List.mem_append_left _ hv
        rw [← List.inj_on_of_nodup_map hdistinct hvs hu hname]
        exact hv
    · intro hplace
      have hearlier : u ∈ front ++ [t] := by simpa using hplace
      obtain ⟨k, hk, hdeclares⟩ := exists_deferred_declaresKey
        (keyPlacement_of_inlineKeys_eq_false hp hinline) hkey
      exact ⟨.addConstraint k,
        List.mem_append_right _ (List.mem_map_of_mem (hkeys u hearlier k hk)), hdeclares⟩

end Split

/-! ## Order of a script -/

/-- In a clean model, a key that a foreign key points at is declared in front of it if keys are
declared on lines, and else if and only if the table of the key is that of the foreign key or comes
before it. -/
theorem keys_precede_foreignKeys {p : Profile}
    (hp : p ∈ [Profile.postgreSql, .mySql, .oracle, .sqlServer]) {tables : List Table}
    (hclean : (Review.reportOn tables).isClean = true) {table column : String}
    {target : Reference} {before after : List Statement}
    (h : (Scope.ofTables tables).statements p =
      before ++ .addConstraint (.foreignKey table column target) :: after) :
    let s := Scope.ofTables tables
    ∃ front t back u, s.tables = front ++ t :: back ∧ t.name = table ∧
      u ∈ s.tables ∧ u.name = target.table ∧
      (u.HasKey target.column →
        ((∃ st ∈ before, st.DeclaresKey p target.table target.column ∧
            ∃ a b c, s.scriptText p = a ++ st.text p s ++ b ++
              (Constraint.foreignKey table column target).statement p ++ c) ↔
          p.inlineKeys = true ∨ u ∈ front ++ [t])) := by
  intro s
  have hall : p ∈ Profile.all := by
    simp only [List.mem_cons, List.not_mem_nil, or_false] at hp
    rcases hp with rfl | rfl | rfl | rfl <;> decide
  obtain ⟨front, t, back, earlier, htables, ⟨l, hl, hk⟩, hbefore, htable, hkeys⟩ :=
    split_foreignKey h
  cases hk
  have ht : t ∈ s.tables := by simp [s, htables]
  obtain ⟨u, hu, hname, -⟩ := Review.exists_target_of_isClean hclean ht hl
  have hdistinct : (s.tables.map (·.name)).Nodup :=
    (Review.nodup_names_of_isClean hclean).sublist (List.filter_sublist.map _)
  have htext : ∀ st ∈ before, ∃ a b c, s.scriptText p = a ++ st.text p s ++ b ++
      (Constraint.foreignKey t.name l.column.name l.target).statement p ++ c := by
    intro st hst
    obtain ⟨first, between, rfl⟩ := List.append_of_mem hst
    have hsplit : s.statements p = first ++ st :: (between ++
        .addConstraint (.foreignKey t.name l.column.name l.target) :: after) := by simpa using h
    simpa only [Statement.text_addConstraint] using Scope.scriptText_of_statements_eq hsplit
  refine ⟨front, t, back, u, htables, rfl, hu, hname, fun hkey => ?_⟩
  have hiff := exists_declaresKey_iff hall htables hdistinct htable hkeys hu hkey
  rw [← hbefore, hname] at hiff
  constructor
  · rintro ⟨st, hst, hdeclares, -⟩
    exact hiff.mp ⟨st, hst, hdeclares⟩
  · intro hplace
    obtain ⟨st, hst, hdeclares⟩ := hiff.mpr hplace
    exact ⟨st, hst, hdeclares, htext st hst⟩

/-- Two tables, of which the second one has the key. -/
def lateKeyTables : List Table :=
  [.withColumns "edge" [(Column.untyped "start").references "node" "id" .manyToOne],
    .withColumns "node" [(Column.untyped "id").primaryKey]]

/-- A column that is unique and part of a key of two columns. -/
def sharedKeyTables : List Table :=
  [.withColumns "line" [(Column.untyped "order").primaryKey.unique,
      (Column.untyped "row").primaryKey],
    .withColumns "note" [(Column.untyped "order").references "line" "order" .oneToOne]]

theorem keys_precede_foreignKeys_lateKeyTables :
    let tables := lateKeyTables.reverse
    let s := Scope.ofTables tables
    let p := Profile.oracle
    let target : Reference := ⟨"node", "id", .manyToOne⟩
    let before := (s.statements p).dropLast
    p ∈ [Profile.postgreSql, .mySql, .oracle, .sqlServer] ∧
    (Review.reportOn tables).isClean = true ∧
    s.statements p = before ++ .addConstraint (.foreignKey "edge" "start" target) :: [] ∧
    (∃ u ∈ s.tables, u.name = "node" ∧ u.HasKey "id") ∧
    ∃ st ∈ before, st.DeclaresKey p "node" "id" ∧
      ∃ a b c, s.scriptText p = a ++ st.text p s ++ b ++
        (Constraint.foreignKey "edge" "start" target).statement p ++ c := by
  intro tables s p target before
  have hp : p ∈ [Profile.postgreSql, .mySql, .oracle, .sqlServer] := by decide
  have hclean : (Review.reportOn tables).isClean = true := by decide +kernel
  have hstatements : s.statements p =
      before ++ .addConstraint (.foreignKey "edge" "start" target) :: [] := by decide
  refine ⟨hp, hclean, hstatements, by decide, ?_⟩
  obtain ⟨front, t, back, u, htables, ht, hu, hname, hkey⟩ :=
    keys_precede_foreignKeys hp hclean hstatements
  have hnode : ∀ v ∈ s.tables, v.name = "node" → v.HasKey "id" := by decide
  refine (hkey (hnode u hu hname)).mpr (.inr ?_)
  match front, htables with
  | [], htables =>
    cases htables
    exact absurd ht (by decide)
  | v :: front, htables =>
    have hlength : 2 = (v :: front ++ t :: back).length := congrArg List.length htables
    have hback : back = [] := List.length_eq_zero_iff.mp (by simp at hlength; omega)
    rw [hback] at htables
    exact htables ▸ hu

/-- With Oracle and SQL Server the key of a later table stands behind a foreign key that points at
it, and with every dialect a column of a composite key is not declared to be unique. -/
theorem foreignKey_without_earlier_key :
    (Review.reportOn lateKeyTables).isClean = true ∧
    (∀ p ∈ [Profile.oracle, .sqlServer],
      let s := Scope.ofTables lateKeyTables
      ∃ before after, s.statements p = before ++
          .addConstraint (.foreignKey "edge" "start" ⟨"node", "id", .manyToOne⟩) :: after ∧
        (∃ u ∈ s.tables, u.name = "node" ∧ ∃ c ∈ u.columns, c.name = "id" ∧
          u.primaryKeyColumns = [c]) ∧
        (∀ st ∈ before, ¬ st.DeclaresKey p "node" "id") ∧
        .addConstraint (.primaryKey "node" ["id"]) ∈ after) ∧
    (Review.reportOn sharedKeyTables).isClean = true ∧
    ∀ p ∈ [Profile.postgreSql, .mySql, .oracle, .sqlServer],
      let s := Scope.ofTables sharedKeyTables
      ∃ before, s.statements p = before ++
          .addConstraint (.foreignKey "note" "order" ⟨"line", "order", .oneToOne⟩) :: [] ∧
        (∃ u ∈ s.tables, u.name = "line" ∧ ∃ c ∈ u.columns, c.name = "order" ∧
          c.isUnique = true) ∧
        ∀ st ∈ before, ¬ st.DeclaresKey p "line" "order" := by
  refine ⟨by decide +kernel, fun p hp => ?_, by decide +kernel, fun p hp => ?_⟩
  · simp only [List.mem_cons, List.not_mem_nil, or_false] at hp
    rcases hp with rfl | rfl <;>
      exact ⟨lateKeyTables.map .createTable, [.addConstraint (.primaryKey "node" ["id"])],
        by decide +kernel, by decide, by decide +kernel, by decide⟩
  · refine ⟨((Scope.ofTables sharedKeyTables).statements p).dropLast, ?_⟩
    simp only [List.mem_cons, List.not_mem_nil, or_false] at hp
    rcases hp with rfl | rfl | rfl | rfl <;>
      exact ⟨by decide +kernel, by decide, by decide +kernel⟩

end SchemaScript
