import Mathlib.Data.List.Perm.Basic
import SchemaScript.Proofs.Export.Unresolved

/-!
# SchemaScript.Proofs.Review.MissingColumn

References whose column is missing, in models in which exported tables can have the same name. The
last of these counts as the target (`missingColumn_iff`), so that a column can be reported though an
earlier one has it (`missing_column_of_namesake`).

What is reported holds of the model as such, in whatever order its tables stand, if and only if the
exported tables of the target's name agree on the column, as a single one does
(`missingColumn_reported_iff`).
-/

namespace SchemaScript

def Table.HasColumn (t : Table) (name : String) : Prop :=
  ∃ c ∈ t.columns, c.name = name

instance (t : Table) (name : String) : Decidable (t.HasColumn name) :=
  inferInstanceAs (Decidable (∃ c ∈ t.columns, c.name = name))

theorem Table.column?_isNone {t : Table} {name : String} :
    (t.column? name).isNone = true ↔ ¬ t.HasColumn name := by
  simp [column?, HasColumn]

namespace Scope

/-- There are exported tables of the target's name, but none of them has the column. -/
def LacksColumn (s : Scope) (r : Reference) : Prop :=
  (∃ u ∈ s.tables, u.name = r.table) ∧
    ∀ u ∈ s.tables, u.name = r.table → ¬ u.HasColumn r.column

/-- All exported tables of the target's name have the column, or none of them has it. -/
def AgreesOn (s : Scope) (r : Reference) : Prop :=
  ∀ u ∈ s.tables, u.name = r.table → ∀ v ∈ s.tables, v.name = r.table →
    u.HasColumn r.column → v.HasColumn r.column

instance (s : Scope) (r : Reference) : Decidable (s.LacksColumn r) :=
  inferInstanceAs (Decidable (_ ∧ _))

instance (s : Scope) (r : Reference) : Decidable (s.AgreesOn r) :=
  inferInstanceAs (Decidable (∀ u ∈ s.tables, _))

variable {s s' : Scope} {r : Reference}

theorem LacksColumn.of_perm (hperm : s'.tables.Perm s.tables) (h : s.LacksColumn r) :
    s'.LacksColumn r := by
  obtain ⟨⟨u, hu, hname⟩, hnone⟩ := h
  exact ⟨⟨u, hperm.mem_iff.mpr hu, hname⟩, fun v hv => hnone v (hperm.mem_iff.mp hv)⟩

theorem AgreesOn.of_perm (hperm : s'.tables.Perm s.tables) (h : s.AgreesOn r) : s'.AgreesOn r :=
  fun u hu hname v hv => h u (hperm.mem_iff.mp hu) hname v (hperm.mem_iff.mp hv)

theorem perm_ofTables {tables tables' : List Table} (hperm : tables'.Perm tables) :
    (ofTables tables').tables.Perm (ofTables tables).tables :=
  hperm.filter _

theorem resolves_of_perm (hperm : s'.tables.Perm s.tables) : s'.resolves r = s.resolves r := by
  rw [resolves, resolves, hasTable, hasTable, Bool.eq_iff_iff, List.any_eq_true, List.any_eq_true]
  simp only [hperm.mem_iff]

end Scope

namespace Review

variable {s s' : Scope} {r : Reference} {tables : List Table}

/-! ## Findings -/

theorem mem_unresolvedReferences {u : UnresolvedReference} :
    u ∈ unresolvedReferences tables ↔ ∃ t ∈ (Scope.ofTables tables).tables, ∃ l ∈ t.links,
      missing? (Scope.ofTables tables).tables l.target = some u.kind ∧
        u = ⟨t.name, l.column.name, l.target, u.kind⟩ := by
  simp only [unresolvedReferences, unresolvedOf, List.mem_flatMap, List.mem_filterMap,
    Option.map_eq_some_iff]
  constructor
  · rintro ⟨t, ht, l, hl, kind, hkind, rfl⟩
    exact ⟨t, ht, l, hl, hkind, rfl⟩
  · rintro ⟨t, ht, l, hl, hkind, hu⟩
    exact ⟨t, ht, l, hl, u.kind, hkind, hu.symm⟩

/-- A finding says what is missing for the target, whichever foreign key it is about. -/
theorem finding_mem_iff {t : Table} {l : Link} {kind : UnresolvedKind}
    (ht : t ∈ (Scope.ofTables tables).tables) (hl : l ∈ t.links) :
    ⟨t.name, l.column.name, l.target, kind⟩ ∈ unresolvedReferences tables ↔
      missing? (Scope.ofTables tables).tables l.target = some kind := by
  rw [mem_unresolvedReferences]
  constructor
  · rintro ⟨t', -, l', -, hmissing, hfinding⟩
    injection hfinding with _ _ htarget
    rwa [← htarget] at hmissing
  · intro hmissing
    exact ⟨t, ht, l, hl, hmissing, rfl⟩

/-! ## The last table of a name -/

/-- The column is missed if the last exported table of the target's name does not have it. -/
theorem missingColumn_iff :
    missing? tables r = some .missingColumn ↔
      ∃ u, (tables.filter (·.name = r.table)).getLast? = some u ∧ ¬ u.HasColumn r.column := by
  have hlast : lastTable? tables r.table = (tables.filter (·.name = r.table)).getLast? := by
    rw [List.getLast?_filter]
    rfl
  rw [missing?, hlast]
  cases (tables.filter (·.name = r.table)).getLast? with
  | none => simp
  | some u => simp [← Table.column?_isNone]

theorem missingColumn_of_lacksColumn (h : s.LacksColumn r) :
    missing? s.tables r = some .missingColumn := by
  obtain ⟨⟨u, hu, hname⟩, hnone⟩ := h
  have hne : s.tables.filter (·.name = r.table) ≠ [] :=
    List.ne_nil_of_mem (List.mem_filter.mpr ⟨hu, by simpa using hname⟩)
  have hlast := List.getLast_mem hne
  rw [List.mem_filter, decide_eq_true_eq] at hlast
  exact missingColumn_iff.mpr ⟨_, List.getLast?_eq_some_getLast hne, hnone _ hlast.1 hlast.2⟩

theorem missingColumn_iff_lacksColumn (h : s.AgreesOn r) :
    missing? s.tables r = some .missingColumn ↔ s.LacksColumn r := by
  refine ⟨fun hmissing => ?_, missingColumn_of_lacksColumn⟩
  obtain ⟨u, hlast, hcolumn⟩ := missingColumn_iff.mp hmissing
  have hu := List.mem_of_getLast? hlast
  rw [List.mem_filter, decide_eq_true_eq] at hu
  exact ⟨⟨u, hu⟩, fun v hv hname hv' => hcolumn (h v hv hname u hu.1 hu.2 hv')⟩

/-- If the name of a table is the name of no other one, references to it miss the columns that it
does not have. -/
theorem missing?_eq_missingColumn {u : Table} (hu : u ∈ s.tables) (hname : u.name = r.table)
    (hsole : ∀ v ∈ s.tables, v.name = r.table → v = u) :
    missing? s.tables r = some .missingColumn ↔ ∀ c ∈ u.columns, c.name ≠ r.column := by
  have hagrees : s.AgreesOn r := fun v hv hvname w hw hwname => by
    rw [hsole v hv hvname, hsole w hw hwname]
    exact id
  have hcolumn : ¬ u.HasColumn r.column ↔ ∀ c ∈ u.columns, c.name ≠ r.column := by
    simp [Table.HasColumn]
  rw [missingColumn_iff_lacksColumn hagrees, ← hcolumn]
  constructor
  · rintro ⟨-, hnone⟩
    exact hnone u hu hname
  · intro hnone
    exact ⟨⟨u, hu, hname⟩, fun v hv hvname => hsole v hv hvname ▸ hnone⟩

/-! ## Other orders of the tables -/

/-- Where the tables agree, their order does not matter. -/
theorem missing?_of_perm (hperm : s'.tables.Perm s.tables) (h : s.AgreesOn r) :
    missing? s'.tables r = missing? s.tables r := by
  refine Option.ext fun kind => ?_
  cases kind with
  | missingTable =>
    rw [missing?_eq_missingTable, missing?_eq_missingTable, Scope.resolves_of_perm hperm]
  | missingColumn =>
    rw [missingColumn_iff_lacksColumn h, missingColumn_iff_lacksColumn (h.of_perm hperm)]
    exact ⟨.of_perm hperm.symm, .of_perm hperm⟩

theorem unresolvedReferences_of_perm {tables' : List Table} (hperm : tables'.Perm tables)
    (h : ∀ t ∈ (Scope.ofTables tables).tables, ∀ l ∈ t.links,
      (Scope.ofTables tables).AgreesOn l.target) :
    (unresolvedReferences tables').Perm (unresolvedReferences tables) := by
  have hscope := Scope.perm_ofTables hperm
  refine List.Perm.flatMap hscope fun t ht => ?_
  have hfindings : unresolvedOf (Scope.ofTables tables').tables t =
      unresolvedOf (Scope.ofTables tables).tables t :=
    List.filterMap_congr fun l hl => by
      rw [missing?_of_perm hscope (h t (hscope.mem_iff.mp ht) l hl)]
  exact .of_eq hfindings

/-- Any exported table can be the last one. -/
theorem exists_perm_last {u : Table}
    (hu : u ∈ (Scope.ofTables tables).tables) :
    ∃ tables', tables'.Perm tables ∧
      ((Scope.ofTables tables').tables.filter (·.name = u.name)).getLast? = some u := by
  obtain ⟨hmem, hexported⟩ := List.mem_filter.mp hu
  refine ⟨tables.erase u ++ [u],
    (List.perm_append_singleton u _).trans (List.perm_cons_erase hmem).symm, ?_⟩
  simp [Scope.ofTables, List.filter_append, hexported]

/-- If no order of the tables makes a difference, they agree: each one of them could be the last. -/
theorem agreesOn_of_orders (h : ∀ tables', tables'.Perm tables →
    (missing? (Scope.ofTables tables').tables r = some .missingColumn ↔
      missing? (Scope.ofTables tables).tables r = some .missingColumn)) :
    (Scope.ofTables tables).AgreesOn r := by
  intro u hu huname v hv hvname hcolumn
  obtain ⟨first, hfirst, hulast⟩ := exists_perm_last hu
  obtain ⟨second, hsecond, hvlast⟩ := exists_perm_last hv
  rw [huname] at hulast
  rw [hvname] at hvlast
  have hnot : missing? (Scope.ofTables first).tables r ≠ some .missingColumn := by
    rw [Ne, missingColumn_iff, hulast]
    simpa using hcolumn
  by_contra hnone
  exact hnot ((h first hfirst).mpr ((h second hsecond).mp
    (missingColumn_iff.mpr ⟨v, hvlast, hnone⟩)))

/-! ## Reports -/

/-- A look-up that leads to the column leads to an exported table that has it. -/
theorem not_lacksColumn_of_column? {u : Table} {c : Column}
    (hu : (⟨tables⟩ : Model).table? r.table = some u) (hc : u.column? r.column = some c) :
    ¬ (Scope.ofTables tables).LacksColumn r := by
  rintro ⟨-, hnone⟩
  have hname : u.name = r.table := by simpa using List.find?_some hu
  have hcname : c.name = r.column := by simpa using List.find?_some hc
  have hmem := List.mem_of_find?_eq_some hc
  have hexported : u ∈ (Scope.ofTables tables).tables :=
    Scope.mem_tables_ofTables.mpr ⟨List.mem_of_find?_eq_some hu, List.ne_nil_of_mem hmem⟩
  exact hnone u hexported hname ⟨c, hmem, hcname⟩

/-- Which columns are reported as missing. The last exported table of the target's name decides. So
a column that none of them has is reported. The converse holds if they agree on the column, and this
is the case if and only if no other order of the tables would change the report. Then no reference
that can be looked up is reported, and if this is so for all references, then all orders of the
tables have the same findings. -/
theorem missingColumn_reported_iff (tables : List Table) :
    let s := Scope.ofTables tables
    (∀ t ∈ s.tables, ∀ l ∈ t.links,
      let finding : UnresolvedReference := ⟨t.name, l.column.name, l.target, .missingColumn⟩
      (finding ∈ unresolvedReferences tables ↔
        ∃ u, (s.tables.filter (·.name = l.target.table)).getLast? = some u ∧
          ¬ u.HasColumn l.target.column) ∧
      (s.LacksColumn l.target → finding ∈ unresolvedReferences tables) ∧
      ((∀ tables', tables'.Perm tables →
          (finding ∈ unresolvedReferences tables' ↔ finding ∈ unresolvedReferences tables)) ↔
        s.AgreesOn l.target) ∧
      (s.AgreesOn l.target →
        (finding ∈ unresolvedReferences tables ↔ s.LacksColumn l.target) ∧
        ∀ u c, (⟨tables⟩ : Model).table? l.target.table = some u →
          u.column? l.target.column = some c → finding ∉ unresolvedReferences tables)) ∧
    ((∀ t ∈ s.tables, ∀ l ∈ t.links, s.AgreesOn l.target) → ∀ tables', tables'.Perm tables →
      (unresolvedReferences tables').Perm (unresolvedReferences tables)) := by
  intro s
  refine ⟨fun t ht l hl => ?_, fun h tables' hperm => unresolvedReferences_of_perm hperm h⟩
  have hreported {tables' : List Table} (hperm : tables'.Perm tables) :
      ⟨t.name, l.column.name, l.target, .missingColumn⟩ ∈ unresolvedReferences tables' ↔
        missing? (Scope.ofTables tables').tables l.target = some .missingColumn :=
    finding_mem_iff ((Scope.perm_ofTables hperm).mem_iff.mpr ht) hl
  have hagrees (h : s.AgreesOn l.target) :
      ⟨t.name, l.column.name, l.target, .missingColumn⟩ ∈ unresolvedReferences tables ↔
        s.LacksColumn l.target :=
    (hreported (.refl tables)).trans (missingColumn_iff_lacksColumn h)
  refine ⟨(hreported (.refl tables)).trans missingColumn_iff, fun h => ?_, ⟨fun h => ?_, ?_⟩,
    fun h => ⟨hagrees h, fun u c hu hc hfinding => ?_⟩⟩
  · exact (hreported (.refl tables)).mpr (missingColumn_of_lacksColumn h)
  · refine agreesOn_of_orders fun tables' hperm => ?_
    rw [← hreported hperm, ← hreported (.refl tables)]
    exact h tables' hperm
  · intro h tables' hperm
    rw [hreported hperm, hreported (.refl tables),
      missing?_of_perm (Scope.perm_ofTables hperm) h]
  · exact not_lacksColumn_of_column? hu hc ((hagrees h).mp hfinding)

/-- Two tables of one name that both have the column of one reference, and both lack that of the
other. -/
def sharedTables : List Table :=
  [.withColumns "user" [.untyped "id"],
    .withColumns "user" [.untyped "email", .untyped "id"],
    .withColumns "mail" [(Column.untyped "sender").references "user" "id" .manyToOne,
      (Column.untyped "origin").references "user" "address" .manyToOne]]

theorem missingColumn_reported_iff_sharedTables :
    let s := Scope.ofTables sharedTables
    let t := sharedTables.getLast (by decide)
    let sender : Reference := ⟨"user", "id", .manyToOne⟩
    let origin : Reference := ⟨"user", "address", .manyToOne⟩
    let l : Link := ⟨(Column.untyped "sender").references "user" "id" .manyToOne, sender⟩
    let l' : Link := ⟨(Column.untyped "origin").references "user" "address" .manyToOne, origin⟩
    t ∈ s.tables ∧ l ∈ t.links ∧ l' ∈ t.links ∧
    (∀ t ∈ s.tables, ∀ l ∈ t.links, s.AgreesOn l.target) ∧ s.LacksColumn origin ∧
    (∃ u c, (⟨sharedTables⟩ : Model).table? "user" = some u ∧ u.column? "id" = some c ∧
      ⟨"mail", "sender", sender, .missingColumn⟩ ∉ unresolvedReferences sharedTables) ∧
    ⟨"mail", "origin", origin, .missingColumn⟩ ∈ unresolvedReferences sharedTables ∧
    sharedTables.reverse.Perm sharedTables ∧
    (unresolvedReferences sharedTables.reverse).Perm (unresolvedReferences sharedTables) := by
  intro s t sender origin l l'
  have ht : t ∈ s.tables := by decide
  have hl : l ∈ t.links := by decide
  have hl' : l' ∈ t.links := by decide
  have hagree : ∀ t ∈ s.tables, ∀ l ∈ t.links, s.AgreesOn l.target := by decide
  have hlacks : s.LacksColumn origin := by decide
  obtain ⟨hlinks, horders⟩ := missingColumn_reported_iff sharedTables
  obtain ⟨-, -, -, hsender⟩ := hlinks t ht l hl
  obtain ⟨-, horigin, -⟩ := hlinks t ht l' hl'
  obtain ⟨-, hlookup⟩ := hsender (hagree t ht l hl)
  have hreverse : sharedTables.reverse.Perm sharedTables := List.reverse_perm _
  exact ⟨ht, hl, hl', hagree, hlacks, ⟨_, _, rfl, rfl, hlookup _ _ rfl rfl⟩, horigin hlacks,
    hreverse, horders hagree _ hreverse⟩

/-- Two tables of one name of which only the first one has the column. -/
def namesakeTables : List Table :=
  [.withColumns "user" [.untyped "id"],
    .withColumns "user" [.untyped "email"],
    .withColumns "mail" [(Column.untyped "sender").references "user" "id" .manyToOne]]

/-- The column is reported though a table of the name has it, and the look-up finds it there. With
the tables in another order it is not reported. -/
theorem missing_column_of_namesake :
    let sender : Reference := ⟨"user", "id", .manyToOne⟩
    (∃ u, (⟨namesakeTables⟩ : Model).table? "user" = some u ∧ (u.column? "id").isSome = true) ∧
    ¬ (Scope.ofTables namesakeTables).LacksColumn sender ∧
    unresolvedReferences namesakeTables = [⟨"mail", "sender", sender, .missingColumn⟩] ∧
    namesakeTables.reverse.Perm namesakeTables ∧
    unresolvedReferences namesakeTables.reverse = [] :=
  ⟨⟨_, rfl, rfl⟩, by decide, by decide, List.reverse_perm _, by decide⟩

end Review
end SchemaScript
