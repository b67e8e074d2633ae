import Mathlib.Data.List.Pairwise
import SchemaScript.Proofs.Script.KeyOrder
import SchemaScript.Proofs.Script.TableName

/-!
# SchemaScript.Proofs.Script.ConstraintName

When the names of constraints are distinct. A name joins the kind of the constraint, the table and
the columns by underscores, and is folded as a whole, so that two constraints have the same name if
and only if they are of one kind and their joined texts are folded alike (`fold_name_eq_iff`).

* `joined_eq_iff`: how texts that are joined by underscores can be the same.
* `sameName_iff`: the tables and the columns of the constraints are folded alike, or one of them
  continues the table of the other.
* `pairwise_deferredConstraints`: the constraints of one table have distinct names.
* `constraintNames_nodup_iff`: when all constraints of the script of a clean model have.
-/

namespace SchemaScript

namespace Text

theorem upper_append (a b : String) : upper (a ++ b) = upper a ++ upper b := by
  simp [upper, upperChars]

end Text

theorem Profile.fold_append (p : Profile) (a b : String) :
    p.fold (a ++ b) = p.fold a ++ p.fold b := by
  unfold Profile.fold
  cases p.identifierCase with
  | preserve => rfl
  | upper => exact Text.upper_append a b

namespace Constraint

def kind : Constraint → ConstraintKind
  | .primaryKey _ _ => .primaryKey
  | .unique _ _ => .unique
  | .foreignKey _ _ _ => .foreignKey

/-- The columns of a constraint, joined as they are in its name. -/
def columnText : Constraint → String
  | .primaryKey _ columns => String.intercalate "_" columns
  | .unique _ column => column
  | .foreignKey _ column _ => column

/-- What the name of a constraint says besides its kind. -/
def subject (k : Constraint) : String :=
  k.table ++ "_" ++ k.columnText

theorem name_eq (k : Constraint) : k.name = k.kind.code ++ ("_" ++ k.subject) := by
  cases k <;> simp only [name, constraintName, kind, subject, table, columnText,
    String.append_assoc]

/-- The constraints are of one kind, and what their names say besides is folded alike. -/
def SameName (p : Profile) (k k' : Constraint) : Prop :=
  k.kind = k'.kind ∧ p.fold k.subject = p.fold k'.subject

instance (p : Profile) (k k' : Constraint) : Decidable (SameName p k k') :=
  inferInstanceAs (Decidable (_ ∧ _))

/-- The constraints are of one kind. The second table is named as the first one with a part behind
it, and in the first constraint this part stands in front of the columns. -/
def Continues (p : Profile) (k k' : Constraint) : Prop :=
  k.kind = k'.kind ∧ ∃ part, p.fold k'.table = p.fold k.table ++ "_" ++ part ∧
    p.fold k.columnText = part ++ "_" ++ p.fold k'.columnText

end Constraint

/-! ## Names as joined texts -/

/-- Where the joint of the first text does not stand behind that of the second one. -/
theorem eq_or_continued {a a' b b' : String} {more : List Char}
    (ha : a'.toList = a.toList ++ more) (h : '_' :: b.toList = more ++ '_' :: b'.toList) :
    a = a' ∧ b = b' ∨ ∃ part, a' = a ++ "_" ++ part ∧ b = part ++ "_" ++ b' := by
  cases more with
  | nil =>
    exact .inl ⟨String.toList_inj.mp (by simpa using ha.symm),
      String.toList_inj.mp (List.cons.inj h).2⟩
  | cons joint part =>
    obtain ⟨rfl, hb⟩ := List.cons.inj h
    refine .inr ⟨String.ofList part, String.toList_inj.mp ?_, String.toList_inj.mp ?_⟩
    · simp [ha]
    · simp [hb]

theorem joined_eq_iff {a a' b b' : String} :
    a ++ "_" ++ b = a' ++ "_" ++ b' ↔ (a = a' ∧ b = b') ∨
      (∃ part, a' = a ++ "_" ++ part ∧ b = part ++ "_" ++ b') ∨
      ∃ part, a = a' ++ "_" ++ part ∧ b' = part ++ "_" ++ b := by
  constructor
  · intro h
    have hlist : a.toList ++ '_' :: b.toList = a'.toList ++ '_' :: b'.toList := by
      simpa using congrArg String.toList h
    rcases List.append_eq_append_iff.mp hlist with ⟨more, ha, hb⟩ | ⟨more, ha, hb⟩
    · rcases eq_or_continued ha hb with heq | hpart
      · exact .inl heq
      · exact .inr (.inl hpart)
    · rcases eq_or_continued ha hb with ⟨rfl, rfl⟩ | hpart
      · exact .inl ⟨rfl, rfl⟩
      · exact .inr (.inr hpart)
  · rintro (⟨rfl, rfl⟩ | ⟨part, rfl, rfl⟩ | ⟨part, rfl, rfl⟩)
    · rfl
    · simp only [String.append_assoc]
    · simp only [String.append_assoc]

section Names

variable {p : Profile} {s : Scope} {t : Table}

theorem fold_code (hp : p ∈ Profile.all) (kind : ConstraintKind) :
    p.fold kind.code = kind.code := by
  have hcodes : ∀ q ∈ Profile.all, ∀ kind ∈ [ConstraintKind.primaryKey, .unique, .foreignKey],
      q.fold kind.code = kind.code := by decide
  exact hcodes p hp kind (by cases kind <;> decide)

theorem ConstraintKind.eq_of_code_append {kind kind' : ConstraintKind} {a b : String}
    (h : kind.code ++ a = kind'.code ++ b) : kind = kind' ∧ a = b := by
  have hlist := congrArg String.toList h
  rw [String.toList_append, String.toList_append] at hlist
  have hlength : kind.code.toList.length = kind'.code.toList.length := by
    cases kind <;> cases kind' <;> rfl
  obtain ⟨hcode, hrest⟩ := List.append_inj hlist hlength
  refine ⟨?_, String.toList_inj.mp hrest⟩
  revert hcode
  cases kind <;> cases kind' <;> decide

theorem fold_name_eq_iff (hp : p ∈ Profile.all) {k k' : Constraint} :
    p.fold k.name = p.fold k'.name ↔ k.SameName p k' := by
  have hname (k : Constraint) :
      p.fold k.name = k.kind.code ++ (p.fold "_" ++ p.fold k.subject) := by
    rw [k.name_eq, p.fold_append, p.fold_append, fold_code hp]
  rw [hname, hname]
  constructor
  · intro h
    obtain ⟨hkind, hrest⟩ := ConstraintKind.eq_of_code_append h
    exact ⟨hkind, (String.append_right_inj _).mp hrest⟩
  · rintro ⟨hkind, hsubject⟩
    rw [hkind, hsubject]

theorem nodup_constraintNames_iff (hp : p ∈ Profile.all) {ks : List Constraint} :
    (ks.map fun k => p.fold k.name).Nodup ↔ ks.Pairwise fun k k' => ¬ k.SameName p k' := by
  rw [List.nodup_iff_pairwise_ne, List.pairwise_map]
  simp only [ne_eq, fold_name_eq_iff hp]

/-! ## Constraints of one table -/

theorem kind_of_mem_deferredKeys {k : Constraint} (h : k ∈ p.deferredKeys t) :
    k.kind = .primaryKey := by
  rw [deferredKeys_eq] at h
  split at h
  · rw [List.mem_singleton.mp h]; rfl
  · cases h

theorem kind_of_mem_deferredUniques {k : Constraint} (h : k ∈ p.deferredUniques t) :
    k.kind = .unique := by
  rw [Profile.deferredUniques] at h
  split at h
  · obtain ⟨c, -, rfl⟩ := List.mem_map.mp h
    rfl
  · cases h

theorem kind_of_mem_deferredForeignKeys {k : Constraint} (h : k ∈ p.deferredForeignKeys s t) :
    k.kind = .foreignKey := by
  obtain ⟨l, -, rfl⟩ := Profile.mem_foreignKeyConstraints (List.mem_append_right _ h)
  rfl

theorem fold_columnText_of_sameName {k k' : Constraint} (h : k.SameName p k')
    (htable : k.table = k'.table) : p.fold k.columnText = p.fold k'.columnText := by
  have hsubject := h.2
  simp only [Constraint.subject, htable, p.fold_append] at hsubject
  exact (String.append_right_inj _).mp hsubject

theorem pairwise_deferredKeys : (p.deferredKeys t).Pairwise fun k k' => ¬ k.SameName p k' := by
  rw [deferredKeys_eq]
  split
  · exact List.pairwise_singleton _ _
  · exact .nil

theorem pairwise_deferredUniques
    (h : t.columns.Pairwise fun c d => p.fold c.name ≠ p.fold d.name) :
    (p.deferredUniques t).Pairwise fun k k' => ¬ k.SameName p k' := by
  rw [Profile.deferredUniques]
  split
  · rw [Table.uniqueConstraints, List.pairwise_map]
    refine (h.sublist List.filter_sublist).imp fun hne hsame => hne ?_
    simpa only [Constraint.columnText] using fold_columnText_of_sameName hsame rfl
  · exact .nil

theorem pairwise_deferredForeignKeys
    (h : t.columns.Pairwise fun c d => p.fold c.name ≠ p.fold d.name) :
    (p.deferredForeignKeys s t).Pairwise fun k k' => ¬ k.SameName p k' := by
  have hlinks : t.links.Pairwise fun l m => p.fold l.column.name ≠ p.fold m.column.name := by
    rw [Table.links, List.pairwise_filterMap]
    refine h.imp fun hne l hl m hm => ?_
    obtain ⟨r, -, rfl⟩ := Option.map_eq_some_iff.mp hl
    obtain ⟨r', -, rfl⟩ := Option.map_eq_some_iff.mp hm
    exact hne
  rw [Profile.deferredForeignKeys]
  split
  · rw [Table.foreignKeyConstraints, List.pairwise_map]
    refine (hlinks.sublist List.filter_sublist).imp fun hne hsame => hne ?_
    simpa only [Constraint.columnText] using fold_columnText_of_sameName hsame rfl
  · exact .nil

/-- The constraints of a table differ in their kinds or in their columns. -/
theorem pairwise_deferredConstraints
    (h : t.columns.Pairwise fun c d => p.fold c.name ≠ p.fold d.name) :
    (p.deferredConstraints s t).Pairwise fun k k' => ¬ k.SameName p k' := by
  rw [Profile.deferredConstraints, List.pairwise_append, List.pairwise_append]
  refine ⟨⟨pairwise_deferredKeys, pairwise_deferredUniques h, ?_⟩,
    pairwise_deferredForeignKeys h, ?_⟩
  · intro k hk k' hk' hsame
    have hkind := hsame.1
    rw [kind_of_mem_deferredKeys hk, kind_of_mem_deferredUniques hk'] at hkind
    cases hkind
  · intro k hk k' hk' hsame
    have hkind := hsame.1
    rw [kind_of_mem_deferredForeignKeys hk'] at hkind
    rcases List.mem_append.mp hk with hk | hk
    · rw [kind_of_mem_deferredKeys hk] at hkind
      cases hkind
    · rw [kind_of_mem_deferredUniques hk] at hkind
      cases hkind

/-! ## Constraints of a script -/

theorem fold_subject (hp : p ∈ Profile.all) (k : Constraint) :
    p.fold k.subject = p.fold k.table ++ "_" ++ p.fold k.columnText := by
  have hjoint : ∀ q ∈ Profile.all, q.fold "_" = "_" := by decide
  rw [Constraint.subject, p.fold_append, p.fold_append, hjoint p hp]

theorem sameName_iff (hp : p ∈ Profile.all) {k k' : Constraint} :
    k.SameName p k' ↔
      (k.kind = k'.kind ∧ p.fold k.table = p.fold k'.table ∧
        p.fold k.columnText = p.fold k'.columnText) ∨ k.Continues p k' ∨ k'.Continues p k := by
  rw [Constraint.SameName, fold_subject hp, fold_subject hp, joined_eq_iff, and_or_left,
    and_or_left, Constraint.Continues, Constraint.Continues, eq_comm (a := k'.kind)]

instance symm_not_sameName : Std.Symm fun k k' : Constraint => ¬ k.SameName p k' :=
  ⟨fun _ _ hne hsame => hne ⟨hsame.1.symm, hsame.2.symm⟩⟩

theorem ne_of_continues {k k' : Constraint} (h : k.Continues p k') : k ≠ k' := by
  rintro rfl
  obtain ⟨-, part, htable, -⟩ := h
  have hlength := congrArg String.length htable
  have hjoint : "_".length = 1 := rfl
  simp only [String.length_append, hjoint] at hlength
  omega

/-- Between tables with distinct folded names, names are the same only where one table continues
the other. -/
theorem pairwise_constraints_iff (hp : p ∈ Profile.all)
    (htables : (s.tables.map fun t => p.fold t.name).Nodup)
    (hcolumns : ∀ t ∈ s.tables, (t.columns.map fun c => p.fold c.name).Nodup) :
    (s.constraints p).Pairwise (fun k k' => ¬ k.SameName p k') ↔
      ∀ k ∈ s.constraints p, ∀ k' ∈ s.constraints p, ¬ k.Continues p k' := by
  constructor
  · intro hpairwise k hk k' hk' hcontinues
    exact hpairwise.forall hk hk' (ne_of_continues hcontinues)
      ((sameName_iff hp).mpr (.inr (.inl hcontinues)))
  · intro hforall
    rw [Scope.constraints, List.pairwise_flatMap]
    refine ⟨fun t ht => pairwise_deferredConstraints (List.pairwise_map.mp (hcolumns t ht)),
      (List.pairwise_map.mp htables).imp_of_mem fun {t u} ht hu hne k hk k' hk' hsame => ?_⟩
    have hmem : k ∈ s.constraints p := List.mem_flatMap.mpr ⟨t, ht, hk⟩
    have hmem' : k' ∈ s.constraints p := List.mem_flatMap.mpr ⟨u, hu, hk'⟩
    rcases (sameName_iff hp).mp hsame with ⟨-, htable, -⟩ | hcontinues | hcontinues
    · rw [table_of_mem_deferredConstraints hk, table_of_mem_deferredConstraints hk'] at htable
      exact hne htable
    · exact hforall k hmem k' hmem' hcontinues
    · exact hforall k' hmem' k hmem hcontinues

end Names

/-- In the script of a clean model, constraints have the same name if and only if they are of one
kind and their tables and columns are joined to the same text. If capital forms are distinct, or if
the dialect is not Oracle, this does not happen in a table, and between two tables only where the
name of one, with an underscore and a part of the columns behind it, is that of the other. -/
theorem constraintNames_nodup_iff {p : Profile} (hp : p ∈ Profile.all) {tables : List Table}
    (h : (Review.reportOn tables).isClean = true) :
    let s := Scope.ofTables tables
    s.constraintNames p = (s.constraints p).map (fun k => p.fold k.name) ∧
    ((s.constraintNames p).Nodup ↔ (s.constraints p).Pairwise fun k k' => ¬ k.SameName p k') ∧
    ((p.dialect = .oracle → (s.tables.map fun t => Text.upper t.name).Nodup ∧
        ∀ t ∈ s.tables, (t.columns.map fun c => Text.upper c.name).Nodup) →
      (∀ t ∈ s.tables, ((p.deferredConstraints s t).map fun k => p.fold k.name).Nodup) ∧
      ((s.constraintNames p).Nodup ↔
        ∀ k ∈ s.constraints p, ∀ k' ∈ s.constraints p, ¬ k.Continues p k')) := by
  intro s
  have hnames : (s.constraintNames p).Nodup ↔
      (s.constraints p).Pairwise fun k k' => ¬ k.SameName p k' := by
    rw [constraintNames_eq hp]
    exact nodup_constraintNames_iff hp
  refine ⟨constraintNames_eq hp, hnames, fun hcapitals => ?_⟩
  have htables : (s.tables.map fun t => p.fold t.name).Nodup :=
    (nodup_fold_tables_iff hp h).mpr fun ho => (hcapitals ho).1
  have hcolumns : ∀ t ∈ s.tables, (t.columns.map fun c => p.fold c.name).Nodup :=
    fun t ht => (nodup_fold_columns_iff hp h ht).mpr fun ho => (hcapitals ho).2 t ht
  refine ⟨fun t ht => ?_, hnames.trans (pairwise_constraints_iff hp htables hcolumns)⟩
  exact (nodup_constraintNames_iff hp).mpr
    (pairwise_deferredConstraints (List.pairwise_map.mp (hcolumns t ht)))

/-- The constraints of the two tables join to the same text, but they are of different kinds. -/
def roleTables : List Table :=
  [.withColumns "user" [(Column.untyped "id").primaryKey,
      (Column.untyped "role_id").unique.references "user_role" "id" .oneToOne],
    .withColumns "user_role" [(Column.untyped "id").primaryKey]]

theorem constraintNames_nodup_iff_roleTables :
    let s := Scope.ofTables roleTables
    let p := Profile.oracle
    p ∈ Profile.all ∧ (Review.reportOn roleTables).isClean = true ∧
    ((s.tables.map fun t => Text.upper t.name).Nodup ∧
      ∀ t ∈ s.tables, (t.columns.map fun c => Text.upper c.name).Nodup) ∧
    s.constraintNames p =
      ["PK_USER_ID", "UK_USER_ROLE_ID", "FK_USER_ROLE_ID", "PK_USER_ROLE_ID"] ∧
    (s.constraintNames p).Nodup ∧
    ∀ k ∈ s.constraints p, ∀ k' ∈ s.constraints p, ¬ k.Continues p k' := by
  intro s p
  have hp : p ∈ Profile.all := by decide
  have hclean : (Review.reportOn roleTables).isClean = true := by decide +kernel
  have hcapitals : (s.tables.map fun t => Text.upper t.name).Nodup ∧
      ∀ t ∈ s.tables, (t.columns.map fun c => Text.upper c.name).Nodup := by decide +kernel
  obtain ⟨hread, hiff, hcontinues⟩ := constraintNames_nodup_iff hp hclean
  have hnodup : (s.constraintNames p).Nodup := hiff.mpr (by decide +kernel)
  exact ⟨hp, hclean, hcapitals, hread.trans (by decide +kernel), hnodup,
    (hcontinues fun _ => hcapitals).2.mp hnodup⟩

/-- The name of the first table, with an underscore and a part of its column behind it, is that of
the second one. -/
def orderTables : List Table :=
  [.withColumns "order" [(Column.untyped "line_node").references "node" "id" .manyToOne],
    .withColumns "order_line" [(Column.untyped "node").references "node" "id" .manyToOne],
    .withColumns "node" [.untyped "id"]]

/-- Foreign keys of two tables of a clean model have the same name. -/
theorem constraint_names_clash :
    (Review.reportOn orderTables).isClean = true ∧
    ∀ p ∈ [Profile.postgreSql, .mySql, .oracle, .sqlServer],
      (Scope.ofTables orderTables).constraintNames p =
        [p.fold "FK_order_line_node", p.fold "FK_order_line_node"] := by
  refine ⟨by decide +kernel, fun p hp => ?_⟩
  simp only [List.mem_cons, List.not_mem_nil, or_false] at hp
  rcases hp with rfl | rfl | rfl | rfl <;>
    exact (constraintNames_eq (by decide)).trans (by decide +kernel)

end SchemaScript
