import Mathlib.Data.List.Nodup
import SchemaScript.Proofs.Review.Reachability

/-!
# SchemaScript.Proofs.Review.Circles

The circles of a model are the strongly connected components of its names, those with at least two
names (`circles_components`). They depend on the names and the edges only (`circles_congr`), so that
references of a table to itself make no difference.
-/

namespace SchemaScript
namespace Review

/-! ## The order of the circles -/

theorem orderedBefore_iff {as bs : List String} :
    orderedBefore as bs = true ↔ as < bs ∨ as = bs := by
  induction as generalizing bs with
  | nil => cases bs <;> simp [orderedBefore]
  | cons a as ih =>
    cases bs with
    | nil => simp [orderedBefore]
    | cons b bs =>
      rw [orderedBefore, List.cons_lt_cons_iff, List.cons.injEq]
      by_cases hlt : a < b
      · simp [hlt]
      · by_cases heq : a = b <;> simp [hlt, heq, ih]

theorem orderedBefore_trans (as bs cs : List String) (h : orderedBefore as bs = true)
    (h' : orderedBefore bs cs = true) : orderedBefore as cs = true := by
  rw [orderedBefore_iff] at *
  rcases h with h | rfl
  · rcases h' with h' | rfl
    · exact .inl (List.lt_trans h h')
    · exact .inl h
  · exact h'

theorem orderedBefore_total (as bs : List String) :
    (orderedBefore as bs || orderedBefore bs as) = true := by
  induction as generalizing bs with
  | nil => simp [orderedBefore]
  | cons a as ih =>
    cases bs with
    | nil => simp [orderedBefore]
    | cons b bs =>
      by_cases heq : a = b
      · subst heq
        simpa [orderedBefore] using ih bs
      · by_cases hlt : a < b
        · simp [orderedBefore, hlt]
        · have hlt' : b < a := Decidable.byContradiction fun h =>
            heq (Std.Trichotomous.trichotomous a b hlt h)
          simp [orderedBefore, hlt']

/-! ## Components -/

/-- Each of the two names can be reached from the other. -/
def Connected (tables : List Table) (a b : String) : Prop :=
  Reaches tables a b ∧ Reaches tables b a

namespace Connected

variable {tables : List Table} {a b c : String}

theorem symm (h : Connected tables a b) : Connected tables b a :=
  ⟨h.2, h.1⟩

theorem trans (h : Connected tables a b) (h' : Connected tables b c) : Connected tables a c :=
  ⟨Relation.ReflTransGen.trans h.1 h'.1, Relation.ReflTransGen.trans h'.2 h.2⟩

/-- Edges lead to names of the model only. -/
theorem mem (h : Connected tables a b) (hne : a ≠ b) : b ∈ tables.map (·.name) := by
  rcases h.1.cases_tail with heq | ⟨_, _, _, hb, _⟩
  · exact absurd heq.symm hne
  · exact hb

end Connected

/-- The circle of the name `a`, which is `a` alone if there is no way back to it. -/
def circle (tables : List Table) (a : String) : List String :=
  circleOf (closures tables) a (reachable (arrows tables) (distinct (tables.map (·.name))) a)

variable {tables : List Table} {a b : String}

theorem circle_eq (tables : List Table) (a : String) :
    circle tables a =
      let names := distinct (tables.map (·.name))
      names.filter fun b =>
        (reachable (arrows tables) names a).contains b &&
          (reachable (arrows tables) names b).contains a := by
  simp [circle, circleOf, closures, List.filter_map, Function.comp_def]

theorem circles_eq (tables : List Table) :
    circles tables =
      ((distinct (tables.map (·.name))).filterMap fun a =>
        if (circle tables a).head? = some a ∧ 1 < (circle tables a).length then
          some (circle tables a)
        else none).mergeSort orderedBefore := by
  simp only [circles, closures, List.filterMap_map]
  rfl

theorem mem_circle (ha : a ∈ tables.map (·.name)) :
    b ∈ circle tables a ↔ b ∈ tables.map (·.name) ∧ Connected tables a b := by
  rw [circle_eq, List.mem_filter, mem_distinct, Bool.and_eq_true, List.contains_iff_mem,
    List.contains_iff_mem, mem_reachable_iff ha]
  constructor
  · rintro ⟨hb, hab, hba⟩
    exact ⟨hb, hab, (mem_reachable_iff hb a).mp hba⟩
  · rintro ⟨hb, hab, hba⟩
    exact ⟨hb, hab, (mem_reachable_iff hb a).mpr hba⟩

/-- A circle lists its names in the order of the model. -/
theorem pairwise_circle (tables : List Table) (a : String) :
    (circle tables a).Pairwise fun x y =>
      (tables.map (·.name)).idxOf x < (tables.map (·.name)).idxOf y := by
  rw [circle_eq]
  exact (pairwise_distinct _).filter _

theorem nodup_circle (tables : List Table) (a : String) : (circle tables a).Nodup := by
  rw [circle_eq]
  exact (nodup_distinct _).filter _

/-- Circles are told apart by their members, whose order the names of the model give. -/
theorem circle_ext {tables' : List Table} (hnames : tables'.map (·.name) = tables.map (·.name))
    (h : ∀ x, x ∈ circle tables' b ↔ x ∈ circle tables a) :
    circle tables' b = circle tables a := by
  refine List.Perm.eq_of_pairwise ?_ (hnames ▸ pairwise_circle tables' b)
    (pairwise_circle tables a) ?_
  · intro x y _ _ hxy hyx
    omega
  · exact (List.perm_ext_iff_of_nodup (nodup_circle tables' b) (nodup_circle tables a)).mpr h

/-- The names of a circle have the same circle. -/
theorem circle_congr (ha : a ∈ tables.map (·.name)) (h : b ∈ circle tables a) :
    circle tables b = circle tables a := by
  obtain ⟨hb, hab⟩ := (mem_circle ha).mp h
  refine circle_ext rfl fun x => ?_
  rw [mem_circle ha, mem_circle hb]
  exact and_congr_right fun _ => ⟨hab.trans, hab.symm.trans⟩

/-- The circles of a model are the circles of its names that have more than one name. -/
theorem mem_circles {c : List String} :
    c ∈ circles tables ↔
      ∃ a ∈ tables.map (·.name), circle tables a = c ∧ 1 < c.length := by
  rw [circles_eq, List.mem_mergeSort, List.mem_filterMap]
  constructor
  · rintro ⟨a, ha, h⟩
    split at h
    · rename_i hc
      cases h
      exact ⟨a, mem_distinct.mp ha, rfl, hc.2⟩
    · cases h
  · rintro ⟨a, ha, rfl, hlength⟩
    -- the circle is told at its first name
    obtain ⟨b, rest, hb⟩ := List.exists_cons_of_length_pos (Nat.lt_of_succ_lt hlength)
    have hmem : b ∈ circle tables a := by simp [hb]
    have hcircle := circle_congr ha hmem
    refine ⟨b, mem_distinct.mpr ((mem_circle ha).mp hmem).1, ?_⟩
    rw [hcircle, if_pos ⟨by simp [hb], hlength⟩]

/-- No name is in two circles. -/
theorem pairwise_disjoint_circles (tables : List Table) :
    (circles tables).Pairwise List.Disjoint := by
  rw [circles_eq]
  refine (List.mergeSort_perm _ _).symm.pairwise ?_ List.disjoint_symm
  rw [List.pairwise_filterMap]
  refine (nodup_distinct (tables.map (·.name))).imp_of_mem ?_
  intro a b ha hb hne c hc d hd x hxc hxd
  split at hc
  · rename_i hheada
    split at hd
    · rename_i hheadb
      cases hc
      cases hd
      have heq : circle tables a = circle tables b :=
        (circle_congr (mem_distinct.mp ha) hxc).symm.trans (circle_congr (mem_distinct.mp hb) hxd)
      rw [heq, hheadb.1] at hheada
      exact hne (Option.some.inj hheada.1).symm
    · cases hd
  · cases hc

theorem nodup_flatten_circles (tables : List Table) : (circles tables).flatten.Nodup := by
  refine List.nodup_flatten.mpr ⟨?_, pairwise_disjoint_circles tables⟩
  intro c hc
  obtain ⟨a, _, rfl, _⟩ := mem_circles.mp hc
  exact nodup_circle tables a

theorem pairwise_lt_circles (tables : List Table) : (circles tables).Pairwise (· < ·) := by
  have hsorted : (circles tables).Pairwise fun x y => orderedBefore x y = true := by
    rw [circles_eq]
    exact List.pairwise_mergeSort orderedBefore_trans orderedBefore_total _
  have hnodup : (circles tables).Nodup := by
    refine (pairwise_disjoint_circles tables).imp_of_mem ?_
    rintro c _ hc - hdisjoint rfl
    obtain ⟨_, _, _, hlength⟩ := mem_circles.mp hc
    obtain ⟨x, hx⟩ := List.exists_mem_of_length_pos (Nat.lt_of_succ_lt hlength)
    exact hdisjoint hx hx
  refine hsorted.imp₂ ?_ hnodup
  intro x y hle hne
  exact (orderedBefore_iff.mp hle).resolve_right hne

/-- Two names are in one circle if each can be reached from the other. -/
theorem circle_of_connected (hne : a ≠ b) :
    (∃ c ∈ circles tables, a ∈ c ∧ b ∈ c) ↔ Connected tables a b := by
  constructor
  · rintro ⟨c, hc, hac, hbc⟩
    obtain ⟨n, hn, rfl, _⟩ := mem_circles.mp hc
    exact ((mem_circle hn).mp hac).2.symm.trans ((mem_circle hn).mp hbc).2
  · intro h
    have hb := h.mem hne
    have ha := h.symm.mem hne.symm
    have hac : a ∈ circle tables a := (mem_circle ha).mpr ⟨ha, .refl, .refl⟩
    have hbc : b ∈ circle tables a := (mem_circle ha).mpr ⟨hb, h⟩
    refine ⟨circle tables a, mem_circles.mpr ⟨a, ha, rfl, ?_⟩, hac, hbc⟩
    by_contra hlength
    match hcircle : circle tables a with
    | [] => simp [hcircle] at hac
    | [x] =>
      rw [hcircle, List.mem_singleton] at hac hbc
      exact hne (hac.trans hbc.symm)
    | x :: y :: rest => simp [hcircle] at hlength

/-! ## References of a table to itself -/

/-- The circles depend on the names and the edges only. -/
theorem circles_congr {tables tables' : List Table}
    (hnames : tables.map (·.name) = tables'.map (·.name)) (hedge : Edge tables = Edge tables') :
    circles tables = circles tables' := by
  have hcircle : ∀ a ∈ distinct (tables.map (·.name)), circle tables a = circle tables' a := by
    intro a ha
    have ha : a ∈ tables.map (·.name) := mem_distinct.mp ha
    have ha' : a ∈ tables'.map (·.name) := hnames ▸ ha
    refine circle_ext hnames fun x => ?_
    rw [mem_circle ha, mem_circle ha', hnames, Connected, Connected, Reaches, Reaches, hedge]
  rw [circles_eq, circles_eq, ← hnames]
  congr 1
  refine List.filterMap_congr fun a ha => ?_
  rw [hcircle a ha]

/-- The table with all columns but those that refer to the table itself. -/
def withoutSelfReferences (t : Table) : Table :=
  { t with columns := t.columns.filter fun c => !c.foreignKey?.any fun r => r.table == t.name }

theorem points_withoutSelfReferences (hne : a ≠ b) :
    Points tables a b ↔ Points (tables.map withoutSelfReferences) a b := by
  constructor
  · rintro ⟨t, ht, rfl, c, hc, hf, r, hr, rfl⟩
    refine ⟨withoutSelfReferences t, List.mem_map_of_mem ht, rfl, c, ?_, hf, r, hr, rfl⟩
    simp [withoutSelfReferences, Column.foreignKey?, hc, hf, hr, hne.symm]
  · rintro ⟨u, hu, rfl, c, hc, hf, r, hr, rfl⟩
    obtain ⟨t, ht, rfl⟩ := List.mem_map.mp hu
    exact ⟨t, ht, rfl, c, List.mem_of_mem_filter hc, hf, r, hr, rfl⟩

theorem edge_withoutSelfReferences (tables : List Table) :
    Edge tables = Edge (tables.map withoutSelfReferences) := by
  have hnames : (tables.map withoutSelfReferences).map (·.name) = tables.map (·.name) := by
    simp [withoutSelfReferences]
  funext a b
  rw [Edge, Edge, hnames]
  exact propext (and_congr_right fun hne => and_congr_right fun _ =>
    points_withoutSelfReferences hne)

/-- The circles are the strongly connected components of the names that have at least two names:
each once, with its names in the order of the model, and the components in order. -/
theorem circles_components (tables : List Table) :
    (∀ a b, a ≠ b →
      ((∃ c ∈ circles tables, a ∈ c ∧ b ∈ c) ↔ Reaches tables a b ∧ Reaches tables b a)) ∧
    (∀ c ∈ circles tables, 1 < c.length) ∧
    (circles tables).flatten.Nodup ∧
    (∀ c ∈ circles tables, c.Pairwise fun a b =>
      (tables.map (·.name)).idxOf a < (tables.map (·.name)).idxOf b) ∧
    (circles tables).Pairwise (· < ·) ∧
    circles (tables.map withoutSelfReferences) = circles tables := by
  refine ⟨fun a b => circle_of_connected, ?_, nodup_flatten_circles tables, ?_,
    pairwise_lt_circles tables, ?_⟩
  · intro c hc
    obtain ⟨a, _, _, hlength⟩ := mem_circles.mp hc
    exact hlength
  · intro c hc
    obtain ⟨a, _, rfl, _⟩ := mem_circles.mp hc
    exact pairwise_circle tables a
  · refine (circles_congr ?_ (edge_withoutSelfReferences tables)).symm
    simp [withoutSelfReferences]

end Review
end SchemaScript
