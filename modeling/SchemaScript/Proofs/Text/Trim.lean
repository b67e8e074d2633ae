import Mathlib.Data.List.DropRight
import SchemaScript.Text.Blank

/-!
# SchemaScript.Proofs.Text.Trim

Texts without white space at their ends. These are the texts that trimming leaves alone
(`trimChars_eq_self`), and what is trimmed is one of them (`trimChars_trimChars`). A text is its
trimmed form with white space on both sides (`exists_trimChars`), whatever white space that is
(`trimChars_between`).
-/

namespace SchemaScript
namespace Text

theorem trimEndChars_eq (cs : List Char) : trimEndChars cs = cs.rdropWhile isBlank := rfl

theorem trimStartChars_eq_self {cs : List Char} (h : cs.head?.any isBlank = false) :
    trimStartChars cs = cs := by
  cases cs with
  | nil => rfl
  | cons c cs => exact List.dropWhile_cons_of_neg (by simpa using h)

theorem trimEndChars_eq_self {cs : List Char} (h : cs.getLast?.any isBlank = false) :
    trimEndChars cs = cs := by
  rw [trimEndChars_eq, List.rdropWhile_eq_self_iff]
  intro hcs
  rw [List.getLast?_eq_some_getLast hcs] at h
  simpa using h

theorem trimChars_eq_self {cs : List Char} (hhead : cs.head?.any isBlank = false)
    (hlast : cs.getLast?.any isBlank = false) : trimChars cs = cs := by
  rw [trimChars, trimStartChars_eq_self hhead, trimEndChars_eq_self hlast]

theorem head?_trimStartChars (cs : List Char) :
    (trimStartChars cs).head?.any isBlank = false := by
  have hkept := List.head?_dropWhile_not isBlank cs
  rw [trimStartChars]
  cases h : (cs.dropWhile isBlank).head? with
  | none => rfl
  | some c =>
    rw [h] at hkept
    simpa using hkept

theorem trimEndChars_trimEndChars (cs : List Char) :
    trimEndChars (trimEndChars cs) = trimEndChars cs :=
  List.rdropWhile_idempotent isBlank cs

/-- What is left of a text without its last characters begins as the text does. -/
theorem head?_trimEndChars {cs : List Char} (h : cs.head?.any isBlank = false) :
    (trimEndChars cs).head?.any isBlank = false := by
  obtain ⟨dropped, hcs⟩ := List.rdropWhile_prefix isBlank cs
  rw [trimEndChars_eq]
  cases hkept : cs.rdropWhile isBlank with
  | nil => rfl
  | cons c kept =>
    rw [hkept] at hcs
    rw [← hcs] at h
    exact h

theorem trimChars_trimChars (cs : List Char) : trimChars (trimChars cs) = trimChars cs := by
  have hstart : trimStartChars (trimChars cs) = trimChars cs :=
    trimStartChars_eq_self (head?_trimEndChars (head?_trimStartChars cs))
  rw [trimChars, hstart, trimChars, trimEndChars_trimEndChars]

theorem getLast?_trimEndChars (cs : List Char) :
    (trimEndChars cs).getLast?.any isBlank = false := by
  have hself := trimEndChars_trimEndChars cs
  rw [trimEndChars_eq, List.rdropWhile_eq_self_iff] at hself
  by_cases hnil : trimEndChars cs = []
  · rw [hnil]
    rfl
  · rw [List.getLast?_eq_some_getLast hnil]
    simpa using hself hnil

theorem head?_trimChars (cs : List Char) : (trimChars cs).head?.any isBlank = false :=
  head?_trimEndChars (head?_trimStartChars cs)

theorem getLast?_trimChars (cs : List Char) : (trimChars cs).getLast?.any isBlank = false :=
  getLast?_trimEndChars _

/-! ## White space around a text -/

theorem toList_allBlank {s : String} (h : allBlank s = true) : ∀ c ∈ s.toList, isBlank c = true :=
  List.all_eq_true.mp h

theorem allBlank_ofList {cs : List Char} (h : ∀ c ∈ cs, isBlank c = true) :
    allBlank (String.ofList cs) = true := by
  rw [allBlank, String.toList_ofList]
  exact List.all_eq_true.mpr h

theorem trimEndChars_append {after : List Char} (h : ∀ c ∈ after, isBlank c = true)
    (cs : List Char) : trimEndChars (cs ++ after) = trimEndChars cs := by
  rw [trimEndChars, List.reverse_append,
    List.dropWhile_append_of_pos fun c hc => h c (List.mem_reverse.mp hc), trimEndChars]

theorem trimChars_between {before cs after : List Char} (hbefore : ∀ c ∈ before, isBlank c = true)
    (hafter : ∀ c ∈ after, isBlank c = true) (hhead : cs.head?.any isBlank = false)
    (hlast : cs.getLast?.any isBlank = false) : trimChars (before ++ cs ++ after) = cs := by
  have hstart : trimStartChars (before ++ cs ++ after) = trimStartChars (cs ++ after) := by
    rw [List.append_assoc]
    exact List.dropWhile_append_of_pos hbefore
  rw [trimChars, hstart]
  cases cs with
  | nil =>
    have hnil : trimStartChars ([] ++ after) = [] := by
      simpa [trimStartChars] using hafter
    rw [hnil]
    rfl
  | cons c cs =>
    have hkept : trimStartChars (c :: cs ++ after) = c :: cs ++ after :=
      trimStartChars_eq_self hhead
    rw [hkept, trimEndChars_append hafter, trimEndChars_eq_self hlast]

theorem exists_trimEndChars (cs : List Char) :
    ∃ after, (∀ c ∈ after, isBlank c = true) ∧ cs = trimEndChars cs ++ after :=
  ⟨cs.rtakeWhile isBlank, fun _ => List.mem_rtakeWhile_imp,
    (List.rdropWhile_append_rtakeWhile ..).symm⟩

theorem exists_trimChars (cs : List Char) :
    ∃ before after, (∀ c ∈ before, isBlank c = true) ∧ (∀ c ∈ after, isBlank c = true) ∧
      cs = before ++ trimChars cs ++ after := by
  obtain ⟨after, hafter, hcs⟩ := exists_trimEndChars (trimStartChars cs)
  refine ⟨cs.takeWhile isBlank, after, fun c hc => List.mem_takeWhile_imp hc, hafter, ?_⟩
  rw [List.append_assoc, trimChars, ← hcs]
  exact List.takeWhile_append_dropWhile.symm

/-- White space around a text is trimmed, whatever white space it is. -/
theorem trim_surrounded {before after : String} (hbefore : allBlank before = true)
    (hafter : allBlank after = true) (s : String) : trim (before ++ s ++ after) = trim s := by
  obtain ⟨front, back, hfront, hback, hs⟩ := exists_trimChars s.toList
  have hchars : (before ++ s ++ after).toList =
      (before.toList ++ front) ++ trimChars s.toList ++ (back ++ after.toList) := by
    conv_lhs => rw [String.toList_append, String.toList_append, hs]
    simp only [List.append_assoc]
  have hleft : ∀ c ∈ before.toList ++ front, isBlank c = true :=
    List.forall_mem_append.mpr ⟨toList_allBlank hbefore, hfront⟩
  have hright : ∀ c ∈ back ++ after.toList, isBlank c = true :=
    List.forall_mem_append.mpr ⟨hback, toList_allBlank hafter⟩
  rw [trim, hchars, trimChars_between hleft hright (head?_trimChars _) (getLast?_trimChars _), trim]

theorem allBlank_trim (s : String) : allBlank (trim s) = allBlank s := by
  obtain ⟨before, after, hbefore, hafter, hs⟩ := exists_trimChars s.toList
  conv_rhs => rw [allBlank, hs, List.all_append, List.all_append, List.all_eq_true.mpr hbefore,
    List.all_eq_true.mpr hafter, Bool.true_and, Bool.and_true]
  rw [allBlank, trim, String.toList_ofList]

/-- What is not blank is not trimmed away. -/
theorem trim_eq_empty_iff {s : String} : trim s = "" ↔ allBlank s = true := by
  constructor
  · intro h
    rw [← allBlank_trim, h]
    rfl
  · intro h
    have hhead := head?_trimChars s.toList
    rw [← allBlank_trim, allBlank, trim, String.toList_ofList] at h
    rw [trim]
    cases hchars : trimChars s.toList with
    | nil => rfl
    | cons c cs =>
      rw [hchars, List.all_cons, Bool.and_eq_true] at h
      rw [hchars, List.head?_cons, Option.any_some, h.1] at hhead
      cases hhead

theorem trim_trim (s : String) : trim (trim s) = trim s := by
  simp only [trim, String.toList_ofList, trimChars_trimChars]

end Text
end SchemaScript
