import Mathlib.Data.Finset.Dedup
import Mathlib.Data.Finset.Card
import SchemaScript.Review.Report

/-!
# SchemaScript.Proofs.Review.Names

What the review says about names that are used more than once. It goes through the names in turn,
and what it reports of a name depends on the names before it (`reports`), so that its findings
belong to places and come in the order of these (`reports_eq`).

* A name is in conflict at each of its places but the first one. The loop keeps the first places of
  the names that came before, and one step keeps them right (`Remembers.step`).
* A column is a duplicate at the second place of its name (`secondAt?_eq_some`), and so just once
  (`count_seconds`).
-/

namespace SchemaScript
namespace Review

/-! ## Names in turn -/

section Turns

variable {β : Type} (report : List String → String → Option β)

/-- What is reported of the names in turn, each with the names before it. -/
def reports (before : List String) : List String → List β
  | [] => []
  | name :: rest => (report before name).toList ++ reports (before ++ [name]) rest

/-- What is reported of the name at a place. -/
def reportAt? (names : List String) (i : Nat) : Option β :=
  names[i]?.bind (report (names.take i))

theorem reportAt?_eq_some {names : List String} {i : Nat} {b : β} :
    reportAt? report names i = some b ↔
      ∃ name, names[i]? = some name ∧ report (names.take i) name = some b :=
  Option.bind_eq_some_iff

theorem reportAt?_length (before : List String) (name : String) (rest : List String) :
    reportAt? report (before ++ name :: rest) before.length = report before name := by
  simp [reportAt?]

theorem reports_eq_range' (before names : List String) :
    reports report before names =
      (List.range' before.length names.length).filterMap (reportAt? report (before ++ names)) := by
  induction names generalizing before with
  | nil => rfl
  | cons name rest ih =>
    have hfirst := reportAt?_length report before name rest
    rw [reports, ih, List.length_cons, List.range'_succ, List.filterMap_cons, hfirst]
    simp only [List.length_append, List.length_singleton, List.append_assoc,
      List.singleton_append]
    cases report before name <;> rfl

/-- The findings are those of the places, in the order of the places. -/
theorem reports_eq (names : List String) :
    reports report [] names =
      (List.range names.length).filterMap (reportAt? report names) := by
  rw [reports_eq_range', List.range_eq_range']
  rfl

theorem mem_reports {names : List String} {b : β} :
    b ∈ reports report [] names ↔ ∃ i, reportAt? report names i = some b := by
  rw [reports_eq, List.mem_filterMap]
  constructor
  · rintro ⟨i, -, hi⟩
    exact ⟨i, hi⟩
  · rintro ⟨i, hi⟩
    obtain ⟨name, hname, -⟩ := (reportAt?_eq_some report).mp hi
    obtain ⟨hlength, -⟩ := List.getElem?_eq_some_iff.mp hname
    exact ⟨i, List.mem_range.mpr hlength, hi⟩

theorem pairwise_reports (names : List String) :
    (reports report [] names).Pairwise fun a b => ∃ i j, i < j ∧
      reportAt? report names i = some a ∧ reportAt? report names j = some b := by
  rw [reports_eq, List.pairwise_filterMap]
  exact List.pairwise_lt_range.imp fun {i j} hij a ha b hb => ⟨i, j, hij, ha, hb⟩

end Turns

/-! ## Naming conflicts -/

/-- The least place of a name. -/
def IsFirstPlace (names : List String) (name : String) (i : Nat) : Prop :=
  names[i]? = some name ∧ ∀ j < i, names[j]? ≠ some name

/-- A name at a place behind the first one that it has. -/
structure IsConflict (names : List String) (c : NamingConflict) : Prop where
  place : names[c.duplicateIndex]? = some c.table
  first : IsFirstPlace names c.table c.firstIndex
  later : c.firstIndex < c.duplicateIndex

/-- The first places of the names that came before. -/
def Remembers (seen : List (String × Nat)) (before : List String) : Prop :=
  ∀ name, seen.lookup name = before.idxOf? name

theorem idxOf?_concat (before : List String) (name other : String) :
    (before ++ [name]).idxOf? other =
      (before.idxOf? other).or (if other = name then some before.length else none) := by
  rw [List.idxOf?, List.findIdx?_append]
  by_cases h : other = name
  · simp [h]
  · simp [h, Ne.symm h]

/-- What is kept stays right: a name that came before keeps its place, and another one gets the
place where it is. -/
theorem Remembers.step {seen : List (String × Nat)} {before : List String}
    (h : Remembers seen before) (name : String) :
    Remembers (if (seen.lookup name).isSome then seen else (name, before.length) :: seen)
      (before ++ [name]) := by
  intro other
  rw [idxOf?_concat, ← h other]
  by_cases hother : other = name
  · subst hother
    cases hseen : seen.lookup other <;> simp [hseen]
  · rw [if_neg hother, Option.or_none]
    split
    · rfl
    · rw [List.lookup_cons, beq_false_of_ne hother]

/-- The conflict of a name, if it is one of those before it. -/
def conflict? (before : List String) (name : String) : Option NamingConflict :=
  (before.idxOf? name).map fun first => ⟨name, first, before.length⟩

theorem conflictsFrom_eq_reports {names before : List String} {seen : List (String × Nat)}
    (h : Remembers seen before) :
    conflictsFrom before.length seen names = reports conflict? before names := by
  induction names generalizing before seen with
  | nil => rfl
  | cons name rest ih =>
    have hstep := h.step name
    rw [conflictsFrom, reports, conflict?, ← h name]
    cases hseen : seen.lookup name with
    | some first =>
      rw [hseen] at hstep
      simpa using ih hstep
    | none =>
      rw [hseen] at hstep
      simpa using ih hstep

theorem namingConflicts_eq_reports (tables : List Table) :
    namingConflicts tables = reports conflict? [] (tables.map (·.name)) := by
  have hnone : Remembers [] [] := fun _ => rfl
  exact conflictsFrom_eq_reports hnone

theorem idxOf?_take_eq_some {names : List String} {name : String} {i first : Nat} :
    (names.take i).idxOf? name = some first ↔ IsFirstPlace names name first ∧ first < i := by
  rw [List.idxOf?_eq_some_iff, IsFirstPlace]
  constructor
  · rintro ⟨hlength, hfirst, hearlier⟩
    rw [List.length_take] at hlength
    rw [List.getElem_take] at hfirst
    refine ⟨⟨List.getElem?_eq_some_iff.mpr ⟨by omega, hfirst⟩, fun j hj h => ?_⟩, by omega⟩
    obtain ⟨_, h⟩ := List.getElem?_eq_some_iff.mp h
    exact hearlier j hj (by rw [List.getElem_take]; exact h)
  · rintro ⟨⟨hfirst, hearlier⟩, hi⟩
    obtain ⟨hlength, hfirst⟩ := List.getElem?_eq_some_iff.mp hfirst
    refine ⟨by rw [List.length_take]; omega, by rw [List.getElem_take, hfirst], fun j hj h => ?_⟩
    rw [List.getElem_take] at h
    exact hearlier j hj (List.getElem?_eq_some_iff.mpr ⟨by omega, h⟩)

theorem conflictAt?_eq_some {names : List String} {i : Nat} {c : NamingConflict} :
    reportAt? conflict? names i = some c ↔ c.duplicateIndex = i ∧ IsConflict names c := by
  rw [reportAt?_eq_some]
  constructor
  · rintro ⟨name, hname, hconflict⟩
    obtain ⟨first, hfirst, rfl⟩ := Option.map_eq_some_iff.mp hconflict
    obtain ⟨hfirst, hlater⟩ := idxOf?_take_eq_some.mp hfirst
    obtain ⟨hi, -⟩ := List.getElem?_eq_some_iff.mp hname
    have hindex : (names.take i).length = i := by rw [List.length_take]; omega
    rw [hindex]
    exact ⟨rfl, hname, hfirst, hlater⟩
  · rintro ⟨rfl, hplace, hfirst, hlater⟩
    obtain ⟨hi, -⟩ := List.getElem?_eq_some_iff.mp hplace
    have hindex : (names.take c.duplicateIndex).length = c.duplicateIndex := by
      rw [List.length_take]; omega
    refine ⟨c.table, hplace, ?_⟩
    rw [conflict?, idxOf?_take_eq_some.mpr ⟨hfirst, hlater⟩, hindex]
    rfl

theorem mem_namingConflicts {tables : List Table} {c : NamingConflict} :
    c ∈ namingConflicts tables ↔ IsConflict (tables.map (·.name)) c := by
  rw [namingConflicts_eq_reports, mem_reports]
  simp only [conflictAt?_eq_some, exists_eq_left']

/-- A name has a conflict at each of its places but the first one. -/
theorem conflictAt?_isSome {names : List String} {i : Nat} (hi : i < names.length) :
    (reportAt? conflict? names i).isSome = true ↔ ∃ j < i, names[j]? = names[i]? := by
  have hname : names[i]? = some names[i] := List.getElem?_eq_getElem hi
  have hearlier : names[i] ∈ names.take i ↔ ∃ j < i, names[j]? = names[i]? := by
    rw [hname, List.mem_take_iff_getElem]
    constructor
    · rintro ⟨j, hj, h⟩
      exact ⟨j, by omega, List.getElem?_eq_some_iff.mpr ⟨by omega, h⟩⟩
    · rintro ⟨j, hj, h⟩
      obtain ⟨hlength, h⟩ := List.getElem?_eq_some_iff.mp h
      exact ⟨j, by omega, h⟩
  rw [← hearlier, reportAt?, hname, Option.bind_some, conflict?, Option.isSome_map,
    List.isSome_idxOf?]

/-- The conflicts are in the order of the places that have one. -/
theorem map_duplicateIndex (names : List String) :
    (reports conflict? [] names).map (·.duplicateIndex) =
      (List.range names.length).filter fun i => ∃ j < i, names[j]? = names[i]? := by
  rw [reports_eq, List.map_filterMap, ← List.filterMap_eq_filter]
  refine List.filterMap_congr fun i hi => ?_
  have hsome := conflictAt?_isSome (List.mem_range.mp hi)
  cases hc : reportAt? conflict? names i with
  | none =>
    rw [hc] at hsome
    simpa [Option.guard] using hsome
  | some c =>
    obtain ⟨rfl, -⟩ := conflictAt?_eq_some.mp hc
    rw [hc] at hsome
    simpa [Option.guard] using hsome

/-- Each name is either new or in conflict. -/
theorem length_conflicts (before names : List String) :
    (reports conflict? before names).length + (before ++ names).toFinset.card =
      names.length + before.toFinset.card := by
  induction names generalizing before with
  | nil => simp [reports]
  | cons name rest ih =>
    have hrest := ih (before ++ [name])
    rw [List.append_assoc, List.singleton_append] at hrest
    rw [reports, conflict?, List.length_append, List.length_cons]
    cases hindex : before.idxOf? name with
    | none =>
      have hnew : name ∉ before.toFinset := by
        simpa using List.idxOf?_eq_none_iff.mp hindex
      have hcard : (before ++ [name]).toFinset.card = before.toFinset.card + 1 := by
        rw [List.toFinset_append, Finset.union_comm]
        exact Finset.card_insert_of_notMem hnew
      simp only [Option.map_none, Option.toList_none, List.length_nil]
      omega
    | some first =>
      have hold : name ∈ before := List.isSome_idxOf?.mp (by rw [hindex]; rfl)
      have hcard : (before ++ [name]).toFinset = before.toFinset := by
        ext other
        simp only [List.mem_toFinset, List.mem_append, List.mem_singleton]
        exact or_iff_left_of_imp fun h => h ▸ hold
      rw [hcard] at hrest
      simp only [Option.map_some, Option.toList_some, List.length_singleton]
      omega

theorem length_namingConflicts (tables : List Table) :
    (namingConflicts tables).length + (tables.map (·.name)).toFinset.card = tables.length := by
  have hlength := length_conflicts [] (tables.map (·.name))
  rwa [← namingConflicts_eq_reports, List.nil_append, List.length_map] at hlength

theorem namingConflicts_eq_nil {tables : List Table} :
    namingConflicts tables = [] ↔ (tables.map (·.name)).Nodup := by
  have hlength := length_namingConflicts tables
  have hnodup : (tables.map (·.name)).toFinset.card = (tables.map (·.name)).length ↔
      (tables.map (·.name)).Nodup := Multiset.toFinset_card_eq_card_iff_nodup
  rw [← hnodup, ← List.length_eq_zero_iff, List.length_map]
  omega

/-- The naming conflicts of a model, column-less tables included: one for each place whose name has
a place before it, in the order of the places, with the first place of the name. So there are as
many as tables beyond the distinct names, and none if and only if all names are distinct. -/
theorem namingConflicts_exact (tables : List Table) :
    let names := tables.map (·.name)
    let conflicts := namingConflicts tables
    conflicts.map (·.duplicateIndex) =
      ((List.range tables.length).filter fun i => ∃ j < i, names[j]? = names[i]?) ∧
    (∀ c, c ∈ conflicts ↔ IsConflict names c) ∧
    conflicts.length + names.toFinset.card = tables.length ∧
    (conflicts = [] ↔ names.Nodup) := by
  intro names conflicts
  refine ⟨?_, fun c => mem_namingConflicts, length_namingConflicts tables, namingConflicts_eq_nil⟩
  have hplaces := map_duplicateIndex names
  rwa [← namingConflicts_eq_reports, List.length_map] at hplaces

/-- The first place is kept, however often the names come. -/
example :
    let tables := ["a", "b", "a", "b", "a"].map fun name => Table.withColumns name []
    namingConflicts tables = [⟨"a", 0, 2⟩, ⟨"b", 1, 3⟩, ⟨"a", 0, 4⟩] := by
  decide

/-! ## Duplicate columns -/

/-- A name that is one of those before it just once. -/
def second? (before : List String) (name : String) : Option String :=
  if before.count name = 1 then some name else none

/-- The place where a name comes for the second time. -/
def IsSecondPlace (names : List String) (name : String) (i : Nat) : Prop :=
  names[i]? = some name ∧ (names.take i).count name = 1

theorem secondsFrom_eq_reports {names seen before : List String} (h : seen.Perm before) :
    secondsFrom seen names = reports second? before names := by
  induction names generalizing seen before with
  | nil => rfl
  | cons name rest ih =>
    have hstep : (name :: seen).Perm (before ++ [name]) :=
      (h.cons name).trans (List.perm_append_singleton name before).symm
    rw [secondsFrom, reports, second?, ← h.count_eq, ih hstep]
    split <;> rfl

theorem secondAt?_eq_some {names : List String} {i : Nat} {name : String} :
    reportAt? second? names i = some name ↔ IsSecondPlace names name i := by
  simp only [reportAt?_eq_some, second?, Option.ite_none_right_eq_some, Option.some.injEq,
    IsSecondPlace]
  constructor
  · rintro ⟨other, hother, hcount, rfl⟩
    exact ⟨hother, hcount⟩
  · rintro ⟨hname, hcount⟩
    exact ⟨name, hname, hcount, rfl⟩

/-- A name is reported once if it comes for the second time, however often it comes. -/
theorem count_seconds (before names : List String) (name : String) :
    (reports second? before names).count name =
      if before.count name ≤ 1 ∧ 2 ≤ before.count name + names.count name then 1 else 0 := by
  induction names generalizing before with
  | nil =>
    rw [reports, List.count_nil, if_neg (by omega)]
  | cons other rest ih =>
    rw [reports, List.count_append, ih, List.count_append, List.count_singleton, List.count_cons,
      second?]
    by_cases hother : other = name
    · subst hother
      simp only [beq_self_eq_true, if_true]
      by_cases hcount : before.count other = 1
      · rw [if_pos hcount, if_neg (by omega), if_pos (by omega)]
        simp
      · -- Whether it is new or has been reported, it is not reported here.
        rw [if_neg hcount, Option.toList_none, List.count_nil, Nat.zero_add]
        exact if_congr (by omega) rfl rfl
    · have hnone : (if before.count other = 1 then some other else none).toList.count name = 0 := by
        split <;> simp [hother]
      simp [hother, hnone]

/-- A column is reported at the place where its name comes for the second time. -/
theorem duplicateColumns_eq (t : Table) :
    duplicateColumns t =
      (reports second? [] (t.columns.map (·.name))).map fun name => ⟨t.name, name⟩ := by
  rw [duplicateColumns, secondsFrom_eq_reports (List.Perm.refl [])]

theorem count_duplicateColumns (t : Table) (d : DuplicateColumn) :
    (duplicateColumns t).count d =
      if t.name = d.table ∧ 2 ≤ (t.columns.map (·.name)).count d.column then 1 else 0 := by
  have hinjective : Function.Injective fun name => (⟨t.name, name⟩ : DuplicateColumn) :=
    fun name other h => (DuplicateColumn.mk.inj h).2
  rw [duplicateColumns_eq]
  by_cases htable : t.name = d.table
  · have hd : d = ⟨t.name, d.column⟩ := by rw [htable]
    rw [hd, List.count_map_of_injective _ _ hinjective, count_seconds]
    simp
  · rw [if_neg fun h => htable h.1, List.count_eq_zero]
    intro hmem
    obtain ⟨name, -, rfl⟩ := List.mem_map.mp hmem
    exact htable rfl

theorem pairwise_duplicateColumns (t : Table) :
    (duplicateColumns t).Pairwise fun d e => ∃ i j, i < j ∧
      IsSecondPlace (t.columns.map (·.name)) d.column i ∧
      IsSecondPlace (t.columns.map (·.name)) e.column j := by
  rw [duplicateColumns_eq, List.pairwise_map]
  simp only [← secondAt?_eq_some]
  exact pairwise_reports second? _

theorem duplicateColumns_eq_nil {t : Table} :
    duplicateColumns t = [] ↔ (t.columns.map (·.name)).Nodup := by
  rw [List.eq_nil_iff_forall_not_mem, List.nodup_iff_count_le_one]
  constructor
  · intro h name
    have hcount := count_duplicateColumns t ⟨t.name, name⟩
    rw [List.count_eq_zero.mpr (h _)] at hcount
    by_contra hname
    rw [if_pos ⟨rfl, Nat.lt_of_not_le hname⟩] at hcount
    cases hcount
  · intro h d hd
    have hcount := count_duplicateColumns t d
    rw [if_neg fun hd => absurd (h d.column) (by omega)] at hcount
    exact List.count_eq_zero.mp hcount hd

/-- Tables of one name count one by one. -/
theorem count_flatMap_duplicateColumns (tables : List Table) (d : DuplicateColumn) :
    (tables.flatMap duplicateColumns).count d =
      tables.countP fun t => t.name = d.table ∧ 2 ≤ (t.columns.map (·.name)).count d.column := by
  induction tables with
  | nil => rfl
  | cons t tables ih =>
    rw [List.flatMap_cons, List.count_append, ih, count_duplicateColumns, List.countP_cons,
      Nat.add_comm]
    simp only [decide_eq_true_eq]

/-- The duplicate columns of a table, and those of a model. A name that is used at least twice is
reported once, whatever its multiplicity, and the names come in the order of their second places.
The report on a model goes through its tables in order, and each table counts for itself, even if
several have the same name. -/
theorem duplicateColumns_exact (tables : List Table) :
    (∀ (t : Table) (d : DuplicateColumn), (duplicateColumns t).count d =
      if t.name = d.table ∧ 2 ≤ (t.columns.map (·.name)).count d.column then 1 else 0) ∧
    (∀ t : Table, (duplicateColumns t).Pairwise fun d e => ∃ i j, i < j ∧
      IsSecondPlace (t.columns.map (·.name)) d.column i ∧
      IsSecondPlace (t.columns.map (·.name)) e.column j) ∧
    let found := (reportOn tables).tables.duplicateColumns
    found = tables.flatMap duplicateColumns ∧
    ∀ d, found.count d =
      tables.countP fun t => t.name = d.table ∧ 2 ≤ (t.columns.map (·.name)).count d.column := by
  exact ⟨count_duplicateColumns, pairwise_duplicateColumns, rfl,
    count_flatMap_duplicateColumns tables⟩

end Review
end SchemaScript
