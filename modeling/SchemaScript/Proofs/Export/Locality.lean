import SchemaScript.Proofs.Script.ForeignKey
import SchemaScript.Proofs.Script.Share

/-!
# SchemaScript.Proofs.Export.Locality

What a table adds to a script depends on the rest of the model in one way only: on which of the
names that its foreign keys point at are names of exported tables (`table_output_local`).

Everything that is generated for a table asks the scope for the foreign keys of the table, and for
nothing else (`share_congr`, `collection_congr`).
-/

namespace SchemaScript

namespace Table

/-- The table has a foreign key that points at the name. -/
def PointsAt (t : Table) (name : String) : Prop :=
  ∃ l ∈ t.links, l.target.table = name

instance (t : Table) (name : String) : Decidable (t.PointsAt name) :=
  inferInstanceAs (Decidable (∃ l ∈ t.links, l.target.table = name))

/-- The targets of the foreign keys of the table are exported from one model if and only if they are
exported from the other. -/
def SameTargets (t : Table) (tables tables' : List Table) : Prop :=
  ∀ l ∈ t.links, l.target.PointsInto tables ↔ l.target.PointsInto tables'

instance (t : Table) (tables tables' : List Table) : Decidable (t.SameTargets tables tables') :=
  inferInstanceAs (Decidable (∀ l ∈ t.links,
    l.target.PointsInto tables ↔ l.target.PointsInto tables'))

/-- All that is generated for the table is the same in both scopes. -/
structure SameOutput (t : Table) (s s' : Scope) : Prop where
  share : ∀ p, s.share p t = s'.share p t
  collection : Collection.ofTable s t = Collection.ofTable s' t
  blocks : (Collection.ofTable s t).blocks = (Collection.ofTable s' t).blocks

end Table

/-! ## Generation asks for foreign keys only -/

section Congruence

variable {s s' : Scope} {t : Table}

theorem share_congr (h : s.foreignKeys t = s'.foreignKeys t) (p : Profile) :
    s.share p t = s'.share p t := by
  have hconstraints : t.foreignKeyConstraints s = t.foreignKeyConstraints s' := by
    rw [Table.foreignKeyConstraints, Table.foreignKeyConstraints, h]
  have hbody : Statement.tableBody p s t = Statement.tableBody p s' t := by
    simp only [Statement.tableBody, Profile.bodyForeignKeys, hconstraints]
  have hdeferred : p.deferredConstraints s t = p.deferredConstraints s' t := by
    simp only [Profile.deferredConstraints, Profile.deferredForeignKeys, hconstraints]
  have hcreate : Statement.createTableText p s t = Statement.createTableText p s' t := by
    unfold Statement.createTableText Statement.tableText
    rw [hbody]
  unfold Scope.share
  rw [hcreate, hdeferred]

theorem collection_congr (h : s.foreignKeys t = s'.foreignKeys t) :
    Collection.ofTable s t = Collection.ofTable s' t := by
  have hfields : Collection.fieldColumns s t = Collection.fieldColumns s' t := by
    simp only [Collection.fieldColumns, h]
  simp only [Collection.ofTable, hfields, h]

theorem sameOutput_of_foreignKeys_eq (h : s.foreignKeys t = s'.foreignKeys t) :
    t.SameOutput s s' where
  share := share_congr h
  collection := collection_congr h
  blocks := by rw [collection_congr h]

end Congruence

/-! ## Models with the same targets -/

section Targets

variable {t : Table} {tables tables' : List Table}

theorem foreignKeys_congr (h : t.SameTargets tables tables') :
    (Scope.ofTables tables).foreignKeys t = (Scope.ofTables tables').foreignKeys t := by
  refine List.filter_congr fun l hl => ?_
  rw [Bool.eq_iff_iff, Scope.resolves_ofTables, Scope.resolves_ofTables]
  exact h l hl

theorem sameOutput_of_sameTargets (h : t.SameTargets tables tables') :
    t.SameOutput (.ofTables tables) (.ofTables tables') :=
  sameOutput_of_foreignKeys_eq (foreignKeys_congr h)

theorem sameTargets_of_perm (h : tables.Perm tables') : t.SameTargets tables tables' := by
  intro l _
  simp only [Reference.PointsInto, h.mem_iff]

theorem sameTargets_insert {before inserted after : List Table}
    (h : ∀ u ∈ inserted, u.columns = [] ∨ ¬ t.PointsAt u.name) :
    t.SameTargets (before ++ after) (before ++ inserted ++ after) := by
  intro l hl
  constructor
  · rintro ⟨u, hu, hfound⟩
    rcases List.mem_append.mp hu with hu | hu
    · exact ⟨u, by simp [hu], hfound⟩
    · exact ⟨u, by simp [hu], hfound⟩
  · rintro ⟨u, hu, hname, hcolumns⟩
    rcases List.mem_append.mp hu with hu | hu
    · rcases List.mem_append.mp hu with hu | hu
      · exact ⟨u, by simp [hu], hname, hcolumns⟩
      · -- An inserted table has no columns, or its name is not that of the target.
        rcases h u hu with hempty | hpoints
        · exact absurd hempty hcolumns
        · exact absurd ⟨l, hl, hname.symm⟩ hpoints
    · exact ⟨u, by simp [hu], hname, hcolumns⟩

end Targets

/-- Scripts are made of what is generated for each table. This is the same in two models that export
the same targets of the table: the tables can be put into another order, which reorders what is
generated for them, and tables can be inserted that have no columns or that the table does not
point at. -/
theorem table_output_local :
    (∀ (s : Scope) (p : Profile), s.scriptText p = scriptOf p (s.tables.map (s.share p))) ∧
    (∀ s : Scope,
      s.shellText = shellOf (s.tables.map fun t => (Collection.ofTable s t).blocks)) ∧
    (∀ (t : Table) (tables tables' : List Table), t ∈ tables → t ∈ tables' → t.columns ≠ [] →
      t.SameTargets tables tables' →
      t.SameOutput (Scope.ofTables tables) (Scope.ofTables tables')) ∧
    (∀ tables tables' : List Table, tables.Perm tables' →
      let s := Scope.ofTables tables
      let s' := Scope.ofTables tables'
      (∀ t : Table, t.SameOutput s s') ∧
      (∀ p, (s.tables.map (s.share p)).Perm (s'.tables.map (s'.share p))) ∧
      (s.tables.map fun t => (Collection.ofTable s t).blocks).Perm
        (s'.tables.map fun t => (Collection.ofTable s' t).blocks)) ∧
    ∀ (t : Table) (before inserted after : List Table),
      (∀ u ∈ inserted, u.columns = [] ∨ ¬ t.PointsAt u.name) →
      t.SameOutput (Scope.ofTables (before ++ after))
        (Scope.ofTables (before ++ inserted ++ after)) := by
  refine ⟨Scope.scriptText_eq, Scope.shellText_eq,
    fun t tables tables' _ _ _ h => sameOutput_of_sameTargets h, fun tables tables' h => ?_,
    fun t before inserted after h => sameOutput_of_sameTargets (sameTargets_insert h)⟩
  intro s s'
  have hsame (t : Table) : t.SameOutput s s' := sameOutput_of_sameTargets (sameTargets_of_perm h)
  have htables : s.tables.Perm s'.tables := h.filter _
  refine ⟨hsame, fun p => ?_, ?_⟩
  · have hshare : s.share p = s'.share p := funext fun t => (hsame t).share p
    rw [hshare]
    exact htables.map _
  · have hblocks : (fun t => (Collection.ofTable s t).blocks) =
        fun t => (Collection.ofTable s' t).blocks := funext fun t => (hsame t).blocks
    rw [hblocks]
    exact htables.map _

theorem table_output_local_linkedTables :
    let t := linkedTables.head (by decide)
    let empty := Table.withColumns "d" []
    let other := Table.withColumns "e" [.untyped "b_id"]
    let tables := [other, t, .withColumns "b" [.untyped "name"]]
    let s := Scope.ofTables linkedTables
    t ∈ linkedTables ∧ t ∈ tables ∧ t.columns ≠ [] ∧ t.SameTargets linkedTables tables ∧
    t.SameOutput s (Scope.ofTables tables) ∧
    linkedTables.Perm linkedTables.reverse ∧
    (s.tables.map (s.share .oracle)).Perm
      ((Scope.ofTables linkedTables.reverse).tables.map
        ((Scope.ofTables linkedTables.reverse).share .oracle)) ∧
    (∀ u ∈ [empty, other], u.columns = [] ∨ ¬ t.PointsAt u.name) ∧
    t.SameOutput s (Scope.ofTables ([empty, other] ++ linkedTables)) := by
  intro t empty other tables s
  obtain ⟨-, -, hlocal, hperm, hinsert⟩ := table_output_local
  have ht : t ∈ linkedTables := by decide
  have ht' : t ∈ tables := by decide
  have hcolumns : t.columns ≠ [] := by decide
  have hsame : t.SameTargets linkedTables tables := by decide
  have hreverse : linkedTables.Perm linkedTables.reverse := (List.reverse_perm _).symm
  have hinserted : ∀ u ∈ [empty, other], u.columns = [] ∨ ¬ t.PointsAt u.name := by decide
  exact ⟨ht, ht', hcolumns, hsame, hlocal t _ _ ht ht' hcolumns hsame, hreverse,
    (hperm _ _ hreverse).2.1 .oracle, hinserted, hinsert t [] _ _ hinserted⟩

end SchemaScript
