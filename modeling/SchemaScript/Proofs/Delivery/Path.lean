import SchemaScript.Delivery.Basic
import SchemaScript.Text.Path

/-!
# SchemaScript.Proofs.Delivery.Path

Behind the path of a directory, a name that is accepted leads to a place directly in it, unless it
is the point (`isDirectlyIn_join`).
-/

namespace SchemaScript

theorem ne_empty_of_checkFilename {name : String} (h : checkFilename name = .ok ()) :
    name ≠ "" := by
  rintro rfl
  cases h

theorem not_mem_of_checkFilename {name : String} (h : checkFilename name = .ok ()) :
    '/' ∉ name.toList := by
  intro hmem
  have hany : (name.toList.any fun c => c = '/' ∨ c = '\\') = true :=
    List.any_eq_true.mpr ⟨'/', hmem, by decide⟩
  rw [checkFilename, hany] at h
  split at h <;> simp at h

namespace Path

theorem parts_ne_nil (path : String) : parts path ≠ [] := by
  simp [parts]

theorem parts_append_slash (directory path : String) :
    parts (directory ++ "/" ++ path) = parts directory ++ parts path := by
  have hslash : (directory ++ "/" ++ path).toList = directory.toList ++ '/' :: path.toList := by
    simp
  rw [parts, hslash, List.splitOn, List.splitOnP_append_cons _ _ (by decide), List.map_append]
  rfl

theorem parts_of_not_mem {name : String} (h : '/' ∉ name.toList) : parts name = [name] := by
  rw [parts, List.splitOn_eq_singleton h, List.map_singleton, String.ofList_toList]

theorem proper_append {ps : List String} (h : ps ≠ []) (qs : List String) :
    proper (ps ++ qs) = proper ps ++ qs.filter namesSomething := by
  cases ps with
  | nil => exact absurd rfl h
  | cons p ps =>
    by_cases hp : p = "."
    · subst hp
      simp [proper]
    · have hproper (rest : List String) :
          proper (p :: rest) = (p :: rest).filter namesSomething := by
        rw [proper]
        intro rest h
        exact hp (List.cons.inj h).1
      rw [List.cons_append, hproper, hproper, ← List.cons_append, List.filter_append]

theorem isRooted_of_not_mem {name : String} (hname : '/' ∉ name.toList) :
    isRooted name = false := by
  rw [isRooted, beq_eq_false_iff_ne]
  exact fun h => hname (List.mem_of_mem_head? h)

/-- A name without slashes is the last part behind the path of a directory, whether or not that
path ends in a slash. -/
theorem exists_parts_join {directory name : String} (hdirectory : directory ≠ "")
    (hname : '/' ∉ name.toList) :
    ∃ front, front ≠ [] ∧ parts (join directory name) = front ++ [name] ∧
      properParts directory = proper front := by
  rw [join, if_neg (by simp [isRooted_of_not_mem hname])]
  by_cases hslash : directory.toList.getLast? = some '/'
  · obtain ⟨cs, hcs⟩ := List.getLast?_eq_some_iff.mp hslash
    have hfront : directory = String.ofList cs ++ "/" := by
      rw [← String.ofList_toList (s := directory), hcs, String.ofList_append]
    rw [if_pos (.inr hslash)]
    refine ⟨parts (String.ofList cs), parts_ne_nil _, ?_, ?_⟩
    · rw [hfront, parts_append_slash, parts_of_not_mem hname]
    · rw [properParts, hfront, ← String.append_empty (s := String.ofList cs ++ "/"),
        parts_append_slash, proper_append (parts_ne_nil _)]
      exact List.append_nil _
  · rw [if_neg (by simp [hdirectory, hslash])]
    refine ⟨parts directory, parts_ne_nil _, ?_, rfl⟩
    rw [parts_append_slash, parts_of_not_mem hname]

theorem properParts_join {directory name : String} (hdirectory : directory ≠ "")
    (hname : '/' ∉ name.toList) :
    properParts (join directory name) =
      properParts directory ++ [name].filter namesSomething := by
  obtain ⟨front, hne, hparts, hproper⟩ := exists_parts_join hdirectory hname
  rw [properParts, hparts, proper_append hne, hproper]

theorem isRooted_join {directory name : String} (hdirectory : directory ≠ "")
    (hname : '/' ∉ name.toList) : isRooted (join directory name) = isRooted directory := by
  obtain ⟨c, cs, hcs⟩ := List.exists_cons_of_ne_nil (mt String.toList_eq_nil_iff.mp hdirectory)
  rw [join, if_neg (by simp [isRooted_of_not_mem hname])]
  split <;> simp [isRooted, hcs]

theorem isDirectlyIn_iff {directory path : String} :
    isDirectlyIn directory path = true ↔ properParts path ≠ [] ∧
      isRooted path = isRooted directory ∧ (properParts path).dropLast = properParts directory := by
  rw [isDirectlyIn]
  cases properParts path with
  | nil => simp
  | cons p ps => simp

/-- Behind the path of a directory, an accepted name leads to a place directly in it, unless it is
the point. -/
theorem isDirectlyIn_join {directory name : String} (hdirectory : directory ≠ "")
    (hname : checkFilename name = .ok ()) :
    isDirectlyIn directory (join directory name) = true ↔ name ≠ "." := by
  have hslash := not_mem_of_checkFilename hname
  rw [isDirectlyIn_iff, isRooted_join hdirectory hslash, properParts_join hdirectory hslash]
  by_cases hpoint : name = "."
  · have hnone : [name].filter namesSomething = [] := by
      rw [hpoint]
      rfl
    rw [hnone, List.append_nil]
    refine iff_of_false ?_ (not_not_intro hpoint)
    -- Without its last part the path is shorter than that of the directory.
    rintro ⟨hne, -, hdrop⟩
    have hlength := congrArg List.length hdrop
    rw [List.length_dropLast] at hlength
    have hpos := List.length_pos_iff.mpr hne
    omega
  · have hnames : [name].filter namesSomething = [name] := by
      simp [namesSomething, ne_empty_of_checkFilename hname, hpoint]
    rw [hnames, List.dropLast_concat]
    exact iff_of_true ⟨by simp, rfl, rfl⟩ hpoint

end Path
end SchemaScript
