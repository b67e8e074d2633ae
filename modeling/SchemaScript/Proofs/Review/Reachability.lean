import Mathlib.Data.List.Basic
import Mathlib.Data.List.TakeWhile
import Mathlib.Logic.Relation
import SchemaScript.Review.References

/-!
# SchemaScript.Proofs.Review.Reachability

A visit finds the names that can be reached from the pending ones through the remaining ones, and
each of them once (`mem_visit_iff`). What `reachable` finds are therefore the names that can be
reached along references (`mem_reachable_iff`).
-/

namespace SchemaScript
namespace Review

/-! ## Distinct names -/

theorem mem_distinct {names : List String} {x : String} : x ∈ distinct names ↔ x ∈ names := by
  induction names with
  | nil => simp [distinct]
  | cons name rest ih =>
    by_cases h : x = name <;> simp [distinct, h, ih]

/-- The distinct names stand in the order of their first places. -/
theorem pairwise_distinct (names : List String) :
    (distinct names).Pairwise fun a b => names.idxOf a < names.idxOf b := by
  induction names with
  | nil => exact .nil
  | cons name rest ih =>
    simp only [distinct, List.pairwise_cons]
    constructor
    · intro b hb
      have hne : name ≠ b := by
        rintro rfl
        simp at hb
      rw [List.idxOf_cons_self, List.idxOf_cons_ne _ hne]
      omega
    · -- away from `name`, the places in the whole list are those in the rest moved by one
      refine (ih.filter _).imp_of_mem ?_
      intro a b ha hb hab
      have hane : name ≠ a := by
        rintro rfl
        simp at ha
      have hbne : name ≠ b := by
        rintro rfl
        simp at hb
      rw [List.idxOf_cons_ne _ hane, List.idxOf_cons_ne _ hbne]
      omega

theorem nodup_distinct (names : List String) : (distinct names).Nodup := by
  refine (pairwise_distinct names).imp ?_
  rintro a b h rfl
  omega

/-! ## Visits -/

/-- A name that can be reached from the pending names, with remaining names only on the way. -/
inductive Found (next : String → List String) (remaining pending : List String) : String → Prop
  where
  | pending {n : String} : n ∈ pending → n ∈ remaining → Found next remaining pending n
  | next {m n : String} : Found next remaining pending m → n ∈ next m → n ∈ remaining →
      Found next remaining pending n

namespace Found

variable {next : String → List String} {remaining pending rest : List String} {n x : String}

theorem mem (h : Found next remaining pending x) : x ∈ remaining := by
  cases h with
  | pending _ hr => exact hr
  | next _ _ hr => exact hr

/-- Nothing is found where no pending name remains. -/
theorem exists_pending (h : Found next remaining pending x) : ∃ m ∈ pending, m ∈ remaining := by
  induction h with
  | pending hp hr => exact ⟨_, hp, hr⟩
  | next _ _ _ ih => exact ih

/-- Pending names that do not remain can be left out. -/
theorem congr_pending {pending' : List String}
    (h : ∀ m ∈ remaining, m ∈ pending → m ∈ pending')
    (hf : Found next remaining pending x) : Found next remaining pending' x := by
  induction hf with
  | pending hp hr => exact .pending (h _ hr hp) hr
  | next _ hn hr ih => exact .next ih hn hr

/-- What is found after a visit to `n` was to be found before it. -/
theorem of_erase (hn : n ∈ remaining)
    (h : Found next (remaining.erase n) (next n ++ rest) x) :
    Found next remaining (n :: rest) x := by
  induction h with
  | pending hp hr =>
    have hr := List.mem_of_mem_erase hr
    rcases List.mem_append.mp hp with hp | hp
    · exact .next (.pending (by simp) hn) hp hr
    · exact .pending (List.mem_cons_of_mem _ hp) hr
  | next _ hs hr ih => exact .next ih hs (List.mem_of_mem_erase hr)

/-- A visit to `n` loses no name but `n`: a way through `n` can start behind it. -/
theorem erase (h : Found next remaining (n :: rest) x) :
    x = n ∨ Found next (remaining.erase n) (next n ++ rest) x := by
  induction h with
  | @pending m hp hr =>
    by_cases hm : m = n
    · exact .inl hm
    · have hp : m ∈ rest := List.mem_of_ne_of_mem hm hp
      exact .inr (.pending (List.mem_append_right _ hp) ((List.mem_erase_of_ne hm).mpr hr))
  | @next l m _ hs hr ih =>
    by_cases hm : m = n
    · exact .inl hm
    · have hr := (List.mem_erase_of_ne hm).mpr hr
      rcases ih with rfl | ih
      · exact .inr (.pending (List.mem_append_left _ hs) hr)
      · exact .inr (.next ih hs hr)

end Found

/-- The next name to visit is the first pending one that remains. -/
theorem dropWhile_pending {remaining pending rest : List String} {n : String}
    (h : pending.dropWhile (fun m => !remaining.contains m) = n :: rest) :
    n ∈ remaining ∧ ∀ m ∈ remaining, m ∈ pending ↔ m ∈ n :: rest := by
  constructor
  · have hhead := List.head?_dropWhile_not (fun m => !remaining.contains m) pending
    rw [h] at hhead
    simpa using hhead
  · intro m hr
    rw [← h]
    constructor
    · intro hp
      rw [← List.takeWhile_append_dropWhile (p := fun m => !remaining.contains m)
        (l := pending)] at hp
      rcases List.mem_append.mp hp with hp | hp
      · have hskipped := List.mem_takeWhile_imp hp
        simp [hr] at hskipped
      · exact hp
    · intro hp
      exact (List.dropWhile_sublist _).subset hp

/-- With a step for each remaining name, a visit finds all that can be reached. -/
theorem mem_visit_iff (next : String → List String) {steps : Nat} {remaining : List String}
    (hsteps : remaining.length ≤ steps) (pending : List String) (x : String) :
    x ∈ visit next steps remaining pending ↔ Found next remaining pending x := by
  induction steps generalizing remaining pending with
  | zero =>
    have hnil : remaining = [] := List.length_eq_zero_iff.mp (Nat.le_zero.mp hsteps)
    subst hnil
    simp only [visit, List.not_mem_nil, false_iff]
    intro h
    exact List.not_mem_nil h.mem
  | succ steps ih =>
    rw [visit]
    split
    · rename_i hnone
      simp only [List.not_mem_nil, false_iff]
      intro h
      obtain ⟨m, hp, hr⟩ := h.exists_pending
      have hgone := List.dropWhile_eq_nil_iff.mp hnone m hp
      simp [hr] at hgone
    · rename_i n rest hsome
      obtain ⟨hn, hpending⟩ := dropWhile_pending hsome
      have hlength : (remaining.erase n).length ≤ steps := by
        rw [List.length_erase_of_mem hn]
        omega
      rw [List.mem_cons, ih hlength]
      constructor
      · intro h
        refine Found.congr_pending (fun m hr hm => (hpending m hr).mpr hm) ?_
        rcases h with rfl | h
        · exact .pending List.mem_cons_self hn
        · exact h.of_erase hn
      · intro h
        exact (h.congr_pending fun m hr hp => (hpending m hr).mp hp).erase

/-! ## References -/

/-- A foreign key of a table with the name `a` points at the name `b`. -/
def Points (tables : List Table) (a b : String) : Prop :=
  ∃ t ∈ tables, t.name = a ∧ ∃ c ∈ t.columns, c.isForeignKey = true ∧
    ∃ r, c.reference = some r ∧ r.table = b

/-- An edge of the graph of table names. -/
def Edge (tables : List Table) (a b : String) : Prop :=
  a ≠ b ∧ b ∈ tables.map (·.name) ∧ Points tables a b

/-- The name `b` can be reached from `a` along edges. -/
def Reaches (tables : List Table) : String → String → Prop :=
  Relation.ReflTransGen (Edge tables)

theorem mem_arrows {tables : List Table} {a b : String} :
    (a, b) ∈ arrows tables ↔ Points tables a b := by
  simp only [arrows, List.mem_flatMap, List.mem_map, Table.links, List.mem_filterMap,
    Option.map_eq_some_iff, Column.foreignKey?, Prod.mk.injEq]
  constructor
  · rintro ⟨t, ht, l, ⟨c, hc, r, hr, rfl⟩, rfl, rfl⟩
    split at hr
    · rename_i hf
      exact ⟨t, ht, rfl, c, hc, hf, r, hr, rfl⟩
    · cases hr
  · rintro ⟨t, ht, rfl, c, hc, hf, r, hr, rfl⟩
    exact ⟨t, ht, ⟨c, r⟩, ⟨c, hc, r, by rw [if_pos hf, hr], rfl⟩, rfl, rfl⟩

theorem mem_successors {tables : List Table} {a b : String} :
    b ∈ successors (arrows tables) a ↔ Points tables a b := by
  simp [successors, ← mem_arrows]

/-- What is found from a name of the model are the names that it reaches. Arrows from a name to
itself and to names without a table are arrows but not edges, and lead to nothing new. -/
theorem mem_reachable_iff {tables : List Table} {a : String} (ha : a ∈ tables.map (·.name))
    (x : String) :
    x ∈ reachable (arrows tables) (distinct (tables.map (·.name))) a ↔ Reaches tables a x := by
  rw [reachable, mem_visit_iff _ (Nat.le_refl _)]
  constructor
  · intro h
    induction h with
    | pending hp _ =>
      rw [List.mem_singleton.mp hp]
      exact .refl
    | @next m n _ hs hr ih =>
      by_cases hmn : m = n
      · exact hmn ▸ ih
      · exact ih.tail ⟨hmn, mem_distinct.mp hr, mem_successors.mp hs⟩
  · intro h
    induction h with
    | refl => exact .pending (List.mem_singleton_self a) (mem_distinct.mpr ha)
    | tail _ he ih =>
      obtain ⟨_, hb, hp⟩ := he
      exact .next ih (mem_successors.mpr hp) (mem_distinct.mpr hb)

end Review
end SchemaScript
