import Mathlib.Data.List.Induction
import Mathlib.Data.List.Nodup
import SchemaScript.Entries

/-!
# SchemaScript.Proofs.Entries

Merged entries keep the order in which their names come first (`keys_merge`), each name once, and
under each name the value that comes last (`mem_merge`).
-/

namespace SchemaScript

theorem lookup_cons_if {κ α : Type} [BEq κ] [LawfulBEq κ] [DecidableEq κ] (key : κ) (e : κ × α)
    (entries : List (κ × α)) :
    (e :: entries).lookup key = if key = e.1 then some e.2 else entries.lookup key := by
  rw [List.lookup_cons]
  by_cases hkey : key = e.1
  · simp [hkey]
  · simp [hkey, beq_eq_false_iff_ne.mpr hkey]

/-- Names that are made of the elements of a list are looked up in the list. -/
theorem lookup_map_name {α β : Type} (name : β → String) (value : β → α) (key : String)
    (bs : List β) :
    (bs.map fun b => (name b, value b)).lookup key = (bs.find? (name · = key)).map value := by
  induction bs with
  | nil => rfl
  | cons b bs ih =>
    rw [List.map_cons, lookup_cons_if, ih]
    by_cases hb : name b = key
    · simp [hb]
    · simp [hb, Ne.symm hb]

namespace Entries

variable {α : Type}

theorem lookup_put (name key : String) (a : α) (entries : List (String × α)) :
    (put name a entries).lookup key = if key = name then some a else entries.lookup key := by
  induction entries with
  | nil => exact lookup_cons_if key (name, a) []
  | cons e entries ih =>
    obtain ⟨other, b⟩ := e
    rw [put]
    by_cases hother : other = name
    · rw [if_pos hother, lookup_cons_if, lookup_cons_if, hother]
      by_cases hkey : key = name <;> simp [hkey]
    · rw [if_neg hother, lookup_cons_if, lookup_cons_if, ih]
      by_cases hkey : key = other
      · simp [hkey, hother]
      · simp [hkey]

theorem keys_put (name : String) (a : α) (entries : List (String × α)) :
    (put name a entries).map Prod.fst =
      if name ∈ entries.map Prod.fst then entries.map Prod.fst
      else entries.map Prod.fst ++ [name] := by
  induction entries with
  | nil => rfl
  | cons e entries ih =>
    obtain ⟨other, b⟩ := e
    rw [put]
    by_cases hother : other = name
    · simp [hother]
    · rw [if_neg hother, List.map_cons, ih, List.map_cons]
      by_cases hname : name ∈ entries.map Prod.fst
      · rw [if_pos hname, if_pos (List.mem_cons_of_mem _ hname)]
      · have hcons : name ∉ other :: entries.map Prod.fst := by
          rw [List.mem_cons, not_or]
          exact ⟨Ne.symm hother, hname⟩
        rw [if_neg hname, if_neg hcons, List.cons_append]

theorem merge_concat (entries : List (String × α)) (e : String × α) :
    merge (entries ++ [e]) = put e.1 e.2 (merge entries) := by
  rw [merge, List.foldl_append]
  rfl

theorem eraseDups_concat (names : List String) (name : String) :
    (names ++ [name]).eraseDups =
      if name ∈ names.eraseDups then names.eraseDups else names.eraseDups ++ [name] := by
  rw [List.eraseDups_append]
  by_cases hname : name ∈ names
  · simp [hname, List.removeAll]
  · simp [hname, List.removeAll, List.eraseDups_cons]

/-- The names stand in the order of their first entries. -/
theorem keys_merge (entries : List (String × α)) :
    (merge entries).map Prod.fst = (entries.map Prod.fst).eraseDups := by
  induction entries using List.reverseRecOn with
  | nil => rfl
  | append_singleton entries e ih =>
    rw [merge_concat, keys_put, ih, List.map_append, List.map_singleton, eraseDups_concat]

theorem nodup_keys_merge (entries : List (String × α)) :
    ((merge entries).map Prod.fst).Nodup := by
  induction entries using List.reverseRecOn with
  | nil => exact List.nodup_nil
  | append_singleton entries e ih =>
    rw [merge_concat, keys_put]
    split
    · exact ih
    · rename_i hnew
      refine List.nodup_append.mpr ⟨ih, List.nodup_singleton _, fun other hother last hlast => ?_⟩
      rw [List.mem_singleton.mp hlast]
      exact fun h => hnew (h ▸ hother)

theorem lookup_merge (entries : List (String × α)) (name : String) :
    (merge entries).lookup name = entries.reverse.lookup name := by
  induction entries using List.reverseRecOn with
  | nil => rfl
  | append_singleton entries e ih =>
    rw [merge_concat, lookup_put, ih, List.reverse_concat, lookup_cons_if]

theorem lookup_eq_some_iff_mem {entries : List (String × α)} (h : (entries.map Prod.fst).Nodup)
    {name : String} {a : α} : entries.lookup name = some a ↔ (name, a) ∈ entries := by
  induction entries with
  | nil => simp
  | cons e entries ih =>
    obtain ⟨other, b⟩ := e
    rw [List.map_cons, List.nodup_cons] at h
    rw [lookup_cons_if, List.mem_cons, Prod.mk.injEq, ← ih h.2]
    by_cases hname : name = other
    · have hlater : entries.lookup name ≠ some a := by
        intro hlookup
        have hmem := List.mem_map_of_mem (f := Prod.fst) ((ih h.2).mp hlookup)
        exact h.1 (hname ▸ hmem)
      simp [hname, hname ▸ hlater, eq_comm]
    · simp [hname]

/-- Each name has the value of its last entry. -/
theorem mem_merge {entries : List (String × α)} {name : String} {a : α} :
    (name, a) ∈ merge entries ↔ entries.reverse.lookup name = some a := by
  rw [← lookup_eq_some_iff_mem (nodup_keys_merge entries), lookup_merge]

end Entries
end SchemaScript
