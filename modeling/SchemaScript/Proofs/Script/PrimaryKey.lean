import SchemaScript.Proofs.Script.LineMark
import SchemaScript.Script.Constraint

/-!
# SchemaScript.Proofs.Script.PrimaryKey

A table with key columns declares its primary key once, in one of three places, and with all key
columns in their order; a table without key columns declares none (`primaryKey_declared_once`).
-/

namespace SchemaScript

namespace Table

theorem primaryKeyConstraint?_eq (t : Table) :
    t.primaryKeyConstraint? =
      if t.primaryKeyColumns = [] then none
      else some (.primaryKey t.name (t.primaryKeyColumns.map (·.name))) := by
  unfold primaryKeyConstraint?
  split
  · rename_i h
    rw [if_pos h]
  · rename_i h
    rw [if_neg h]

end Table

/-- No dialect declares keys in the body of a table only. -/
theorem keyPlacement_of_mem {p : Profile} (hp : p ∈ Profile.all) :
    p.keyPlacement = .column ∨ p.keyPlacement = .alterTable := by
  simp only [Profile.all, List.mem_cons, List.not_mem_nil, or_false] at hp
  rcases hp with rfl | rfl | rfl | rfl | rfl <;> simp [Profile.postgreSql, Profile.mySql,
    Profile.sqlite, Profile.oracle, Profile.sqlServer]

section Places

variable (p : Profile) (t : Table)

/-- A line declares the key where keys stand on lines and the column is the only one of the key. -/
theorem columnsWith_primaryKey (hp : p ∈ Profile.all) :
    p.columnsWith t "PRIMARY KEY" =
      if p.keyPlacement = .column ∧ t.primaryKeyColumns.length ≤ 1 then t.primaryKeyColumns
      else [] := by
  have hmem (c : Column) :
      "PRIMARY KEY" ∈ p.marks (!t.hasCompositeKey && c.isPrimaryKey) c ↔
        (p.keyPlacement = .column ∧ t.primaryKeyColumns.length ≤ 1) ∧ c.isPrimaryKey = true := by
    rw [Profile.primaryKey_mem_marks hp]
    simp [Table.hasCompositeKey, Profile.inlineKeys, and_assoc]
  rw [Profile.columnsWith_eq hp]
  simp only [hmem]
  by_cases h : p.keyPlacement = .column ∧ t.primaryKeyColumns.length ≤ 1
  · simp only [h, true_and, and_self, if_true]
    simp [Table.primaryKeyColumns]
  · simp [h]

theorem bodyKey?_eq :
    p.bodyKey? t =
      if p.keyPlacement = .column ∧ 1 < t.primaryKeyColumns.length then
        some (.primaryKey t.name (t.primaryKeyColumns.map (·.name)))
      else none := by
  simp only [Profile.bodyKey?, Profile.inlineKeys, Table.primaryKeyConstraint?_eq,
    Table.hasCompositeKey]
  cases t.primaryKeyColumns <;> simp

theorem deferredKeys_eq :
    p.deferredKeys t =
      if p.keyPlacement = .alterTable ∧ t.primaryKeyColumns ≠ [] then
        [.primaryKey t.name (t.primaryKeyColumns.map (·.name))]
      else [] := by
  simp only [Profile.deferredKeys, Table.primaryKeyConstraint?_eq]
  cases t.primaryKeyColumns <;> simp

/-- The three places together declare the key once, whichever of them the dialect uses. -/
theorem length_places (hp : p ∈ Profile.all) :
    (p.columnsWith t "PRIMARY KEY").length + (p.bodyKey? t).toList.length +
      (p.deferredKeys t).length = if t.primaryKeyColumns = [] then 0 else 1 := by
  rw [columnsWith_primaryKey p t hp, bodyKey?_eq, deferredKeys_eq]
  rcases keyPlacement_of_mem hp with h | h
  · match t.primaryKeyColumns with
    | [] => simp [h]
    | [c] => simp [h]
    | c :: d :: rest => simp [h]
  · cases t.primaryKeyColumns <;> simp [h]

end Places

/-- What the line of a key column says of null values. -/
theorem count_notNull_of_isPrimaryKey {p : Profile} (hp : p ∈ Profile.all) (soleKey : Bool)
    {c : Column} (h : c.isPrimaryKey = true) :
    (p.marks soleKey c).count "NOT NULL" = 1 ∧ "NULL" ∉ p.marks soleKey c := by
  have hrequired : c.isRequired = true := by simp [Column.isRequired, h]
  have hnotNull : "NOT NULL" ∈ p.marks soleKey c := (Profile.notNull_mem_marks hp).mpr hrequired
  rw [(Profile.nodup_marks hp soleKey c).count, if_pos hnotNull, Profile.null_mem_marks hp]
  simp [hrequired]

/-- The texts of a table that declare its key: lines of columns, a clause of the body, and
statements. There is one of them if the table has key columns, and it has all of them. Every column
has its line, and that of a key column says once that there are no null values. -/
theorem primaryKey_declared_once {p : Profile} (hp : p ∈ Profile.all) (t : Table) :
    let keys := t.primaryKeyColumns
    let clause := "PRIMARY KEY (" ++ String.intercalate ", " (keys.map fun c => p.quote c.name) ++
      ")"
    let name := "PK_" ++ t.name ++ "_" ++ String.intercalate "_" (keys.map (·.name))
    (p.columnsWith t "PRIMARY KEY").length + (p.bodyKey? t).toList.length +
        (p.deferredKeys t).length = (if keys = [] then 0 else 1) ∧
    p.columnsWith t "PRIMARY KEY" =
      (if p.keyPlacement = .column ∧ keys.length = 1 then keys else []) ∧
    (p.bodyKey? t).map (·.clause p) =
      (if p.keyPlacement = .column ∧ 1 < keys.length then some clause else none) ∧
    (p.deferredKeys t).map (·.statement p) =
      (if p.keyPlacement = .alterTable ∧ keys ≠ [] then
        ["ALTER TABLE " ++ p.quote t.name ++ " ADD CONSTRAINT " ++ p.quote name ++ " " ++ clause ++
          ";"]
      else []) ∧
    (p.columnLines t).length = t.columns.length ∧
    (p.markedLines t).map Prod.fst = t.columns ∧
    ∀ e ∈ p.markedLines t, e.1.isPrimaryKey = true →
      e.2.count "NOT NULL" = 1 ∧ "NULL" ∉ e.2 := by
  intro keys clause name
  have hclause : (Constraint.primaryKey t.name (keys.map (·.name))).clause p = clause := by
    rw [Constraint.clause_primaryKey, List.map_map]
    rfl
  refine ⟨length_places p t hp, ?_, ?_, ?_, List.length_map _, ?_, ?_⟩
  · rw [columnsWith_primaryKey p t hp]
    cases hk : t.primaryKeyColumns with
    | nil => simp [keys, hk]
    | cons c rest => cases rest <;> simp [keys, hk]
  · rw [bodyKey?_eq]
    split
    · exact congrArg some hclause
    · rfl
  · rw [deferredKeys_eq]
    split
    · rw [List.map_singleton]
      unfold Constraint.statement
      rw [hclause]
      rfl
    · rfl
  · rw [Profile.markedLines_eq hp, List.map_map]
    exact List.map_id _
  · intro e he hkey
    rw [Profile.markedLines_eq hp] at he
    obtain ⟨c, -, rfl⟩ := List.mem_map.mp he
    exact count_notNull_of_isPrimaryKey hp _ hkey

/-- Two key columns, of which one may be null, and a column that has to be unique. -/
def keyedTable : Table :=
  let column (name : String) (key nullable : Bool) : Column :=
    ⟨name, some "INT", key, false, some nullable, !key, none, none⟩
  .withColumns "line" [column "order" true true, column "code" false true, column "row" true false]

theorem primaryKey_declared_once_keyedTable :
    let p := Profile.mySql
    let clause := "PRIMARY KEY (`order`, `row`)"
    let order := keyedTable.columns.head (by decide)
    p ∈ Profile.all ∧
    p.columnLines keyedTable =
      ["`order` INT NOT NULL", "`code` INT UNIQUE", "`row` INT NOT NULL"] ∧
    (p.columnsWith keyedTable "PRIMARY KEY").length + (p.bodyKey? keyedTable).toList.length +
      (p.deferredKeys keyedTable).length = 1 ∧
    p.columnsWith keyedTable "PRIMARY KEY" = [] ∧
    (p.bodyKey? keyedTable).map (·.clause p) = some clause ∧
    (p.deferredKeys keyedTable).map (·.statement p) = [] ∧
    (p.markedLines keyedTable).map Prod.fst = keyedTable.columns ∧
    (order, ["NOT NULL"]) ∈ p.markedLines keyedTable ∧ order.isPrimaryKey = true ∧
    ["NOT NULL"].count "NOT NULL" = 1 ∧ "NULL" ∉ ["NOT NULL"] := by
  intro p clause order
  have hp : p ∈ Profile.all := by decide
  obtain ⟨hcount, hlines, hbody, hdeferred, -, hcolumns, hnull⟩ :=
    primaryKey_declared_once hp keyedTable
  have horder : (order, ["NOT NULL"]) ∈ p.markedLines keyedTable := by decide +kernel
  have hkey : order.isPrimaryKey = true := by decide
  exact ⟨hp, by decide +kernel, hcount.trans (by decide), hlines.trans (by decide),
    hbody.trans (by decide), hdeferred.trans (by decide), hcolumns, horder, hkey,
    hnull _ horder hkey⟩

end SchemaScript
