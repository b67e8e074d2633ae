import Mathlib.Data.List.TakeWhile
import SchemaScript.Proofs.Text.Trim
import SchemaScript.Types.Token

/-!
# SchemaScript.Proofs.Types.Division

Type tokens at their first bracket. A token is divided into a front and a back there, and whether it
has parameters can be told from the two (`split?_eq`). So a keyword with a text in brackets has its
parameters found, whatever white space is in between (`split?_spaced`), and nothing else has any
(`split?_inversion`).
-/

namespace SchemaScript
namespace TypeToken

/-! ## Keywords -/

theorem isBlank_of_isLetter {c : Char} (h : isLetter c = true) : Text.isBlank c = false := by
  have hA : 'A'.val.toNat = 65 := rfl
  have hZ : 'Z'.val.toNat = 90 := rfl
  have ha : 'a'.val.toNat = 97 := rfl
  have hz : 'z'.val.toNat = 122 := rfl
  simp only [isLetter, Bool.or_eq_true, Bool.and_eq_true, decide_eq_true_eq, Char.le_def,
    UInt32.le_iff_toNat_le] at h
  simp only [Text.isBlank, Bool.or_eq_false_iff, Bool.and_eq_false_iff, decide_eq_false_iff_not,
    beq_eq_false_iff_ne, ne_eq, UInt32.le_iff_toNat_le, ← UInt32.toNat_inj, UInt32.reduceToNat]
  omega

theorem isWordChar_of_isLetter {c : Char} (h : isLetter c = true) : isWordChar c = true := by
  rw [isWordChar, h]
  rfl

theorem isWordChar_of_mem {keyword : List Char} (h : isKeyword keyword = true) :
    ∀ c ∈ keyword, isWordChar c = true := by
  cases keyword with
  | nil => cases h
  | cons d rest =>
    rw [isKeyword, Bool.and_eq_true, List.all_eq_true] at h
    intro c hc
    rcases List.mem_cons.mp hc with rfl | hc
    · exact isWordChar_of_isLetter h.1
    · exact h.2 c hc

theorem ne_bracket_of_isKeyword {keyword : List Char} (h : isKeyword keyword = true) :
    ∀ c ∈ keyword, c ≠ '(' := by
  rintro c hc rfl
  exact absurd (isWordChar_of_mem h _ hc) (by decide)

theorem head?_of_isKeyword {keyword : List Char} (h : isKeyword keyword = true)
    (rest : List Char) : (keyword ++ rest).head?.any Text.isBlank = false := by
  cases keyword with
  | nil => cases h
  | cons c keyword =>
    rw [isKeyword, Bool.and_eq_true] at h
    exact isBlank_of_isLetter h.1

/-- A keyword begins with a letter, which is not lost with the blanks at its end. -/
theorem isKeyword_trimEndChars {keyword : List Char} (h : isKeyword keyword = true) :
    isKeyword (Text.trimEndChars keyword) = true := by
  obtain ⟨after, hafter, hkeyword⟩ := Text.exists_trimEndChars keyword
  cases hkept : Text.trimEndChars keyword with
  | nil =>
    rw [hkept, List.nil_append] at hkeyword
    subst hkeyword
    cases keyword with
    | nil => cases h
    | cons c rest =>
      rw [isKeyword, Bool.and_eq_true] at h
      have hblank := hafter c List.mem_cons_self
      rw [isBlank_of_isLetter h.1] at hblank
      cases hblank
  | cons c kept =>
    rw [hkept] at hkeyword
    rw [hkeyword, List.cons_append, isKeyword, Bool.and_eq_true, List.all_append,
      Bool.and_eq_true] at h
    rw [isKeyword, h.1, h.2.1, Bool.and_self]

/-! ## The first bracket -/

/-- What stands in front of the first bracket, without the white space at its end. -/
def front (token : List Char) : List Char :=
  Text.trimEndChars (token.takeWhile (· ≠ '('))

/-- The text from the first bracket on. -/
def back (token : List Char) : List Char :=
  token.dropWhile (· ≠ '(')

theorem head?_back (token : List Char) : back token = [] ∨ ∃ rest, back token = '(' :: rest := by
  have hstop := List.head?_dropWhile_not (fun c => decide (c ≠ '(')) token
  rw [back]
  cases h : token.dropWhile (· ≠ '(') with
  | nil => exact .inl rfl
  | cons c rest =>
    rw [h] at hstop
    obtain rfl : c = '(' := by simpa using hstop
    exact .inr ⟨rest, rfl⟩

theorem ne_bracket_of_mem_front {token : List Char} {c : Char} (h : c ∈ front token) : c ≠ '(' := by
  simpa using List.mem_takeWhile_imp (Text.mem_of_mem_trimEndChars h)

/-- A token is its front and its back, with white space in between. -/
theorem exists_gap (token : List Char) :
    ∃ gap, (∀ c ∈ gap, Text.isBlank c = true) ∧ token = front token ++ gap ++ back token := by
  obtain ⟨gap, hgap, hfront⟩ := Text.exists_trimEndChars (token.takeWhile (· ≠ '('))
  refine ⟨gap, hgap, ?_⟩
  rw [front, ← hfront]
  exact List.takeWhile_append_dropWhile.symm

/-- Without a back, a token that has no white space at its end is its front. -/
theorem front_eq_self {token : List Char} (h : token.getLast?.any Text.isBlank = false)
    (hback : back token = []) : front token = token := by
  have hall : token.takeWhile (· ≠ '(') = token := by
    conv_rhs => rw [← List.takeWhile_append_dropWhile (p := (· ≠ '(')) (l := token)]
    rw [show token.dropWhile (· ≠ '(') = [] from hback, List.append_nil]
  rw [front, hall, Text.trimEndChars_eq_self h]

/-- A text in front of which there is no bracket, and none in it. -/
theorem divide_append {keyword rest : List Char} (hkeyword : ∀ c ∈ keyword, c ≠ '(')
    (hrest : rest = [] ∨ ∃ more, rest = '(' :: more) :
    front (keyword ++ rest) = Text.trimEndChars keyword ∧ back (keyword ++ rest) = rest := by
  have hall : ∀ c ∈ keyword, decide (c ≠ '(') = true := fun c hc => decide_eq_true (hkeyword c hc)
  rw [front, back, List.takeWhile_append_of_pos hall, List.dropWhile_append_of_pos hall]
  rcases hrest with rfl | ⟨more, rfl⟩
  · simp
  · simp

/-! ## Parameters -/

/-- The parts of a token with parameters by its front and its back. -/
theorem split?_eq (token : List Char) :
    split? token =
      match back token with
      | [] => none
      | _ :: rest =>
        if isKeyword (front token) && rest.getLast? == some ')' && !rest.dropLast.contains '\n' then
          some (front token, Text.trimChars rest.dropLast)
        else none := rfl

/-- The keyword and the parameters of a token that has white space in between. -/
theorem split?_spaced {keyword between params : List Char} (hkeyword : isKeyword keyword = true)
    (hbetween : ∀ c ∈ between, Text.isBlank c = true) (hfeed : '\n' ∉ params) :
    split? (keyword ++ between ++ '(' :: (params ++ [')'])) =
      some (Text.trimEndChars keyword, Text.trimChars params) := by
  have hopen : ∀ c ∈ keyword ++ between, c ≠ '(' := by
    intro c hc
    rcases List.mem_append.mp hc with hc | hc
    · exact ne_bracket_of_isKeyword hkeyword c hc
    · rintro rfl
      exact absurd (hbetween _ hc) (by decide)
  have hplain : params.contains '\n' = false := by simpa using hfeed
  obtain ⟨hfront, hback⟩ := divide_append hopen (.inr ⟨params ++ [')'], rfl⟩)
  rw [split?_eq, hfront, hback, Text.trimEndChars_append hbetween]
  simp only [isKeyword_trimEndChars hkeyword, List.getLast?_concat, List.dropLast_concat, hplain,
    beq_self_eq_true, Bool.not_false, Bool.and_self, if_true]

/-- The parts that a token is divided into make up the token. -/
theorem split?_inversion {token keyword params : List Char}
    (h : split? token = some (keyword, params)) :
    isKeyword keyword = true ∧ ∃ between inner,
      (∀ c ∈ between, Text.isBlank c = true) ∧ '\n' ∉ inner ∧ params = Text.trimChars inner ∧
      token = keyword ++ between ++ '(' :: (inner ++ [')']) := by
  obtain ⟨between, hbetween, htoken⟩ := exists_gap token
  rw [split?_eq] at h
  rcases head?_back token with hback | ⟨rest, hback⟩
  · rw [hback] at h
    cases h
  · rw [hback] at h htoken
    simp only at h
    split at h
    · rename_i hform
      cases h
      simp only [Bool.and_eq_true, Bool.not_eq_true', List.contains_eq_mem,
        decide_eq_false_iff_not, beq_iff_eq] at hform
      obtain ⟨⟨hkeyword, hlast⟩, hfeed⟩ := hform
      obtain ⟨inner, rfl⟩ := List.getLast?_eq_some_iff.mp hlast
      rw [List.dropLast_concat] at hfeed ⊢
      exact ⟨hkeyword, between, inner, hbetween, hfeed, rfl, htoken⟩
    · cases h

end TypeToken
end SchemaScript
