import SchemaScript.Types.Native

/-!
# SchemaScript.Proofs.Types.Native

The characters of native types. A token of letters, digits and a few marks has a native type of such
characters in every dialect (`isPlainType_convertType`), so that types cannot disturb a script.
-/

namespace SchemaScript

namespace TypeToken

theorem mem_of_mem_split {token keyword params : List Char} {c : Char}
    (h : split? token = some (keyword, params)) (hc : c ∈ params) : c ∈ token := by
  simp only [split?] at h
  split at h
  · cases h
  · rename_i rest hrest
    split at h
    · cases h
      have hmem : c ∈ token.dropWhile (· ≠ '(') := by
        rw [hrest]
        exact List.mem_cons_of_mem _ (List.dropLast_subset _ (Text.mem_of_mem_trimChars hc))
      exact (List.dropWhile_sublist _).mem hmem
    · cases h

theorem mem_of_mem_params {token params : String} {c : Char}
    (h : (parse token).params = some params) (hc : c ∈ params.toList) : c ∈ token.toList := by
  simp only [parse] at h
  split at h
  · rename_i keyword chars hs
    cases h
    rw [String.toList_ofList] at hc
    exact Text.mem_of_mem_trimChars (mem_of_mem_split hs hc)
  · cases h

end TypeToken

/-- Letters, digits and the marks of plain type tokens. -/
def isTypeChar (c : Char) : Bool :=
  c.isAlphanum || c ∈ ['_', ' ', ',', '(', ')']

/-- A text of such characters only. -/
def IsPlainType (token : String) : Prop :=
  ∀ c ∈ token.toList, isTypeChar c = true

instance (token : String) : Decidable (IsPlainType token) :=
  decidable_of_iff (token.toList.all isTypeChar = true) List.all_eq_true

namespace Dialect

theorem nativeTypes_plain (d : Dialect) : ∀ e ∈ d.nativeTypes, IsPlainType e.2 := by
  cases d <;> decide

theorem mem_of_nativeType? {d : Dialect} {keyword native : String}
    (h : d.nativeType? keyword = some native) : (keyword, native) ∈ d.nativeTypes := by
  obtain ⟨before, after, hsplit, -⟩ := List.lookup_eq_some_iff.mp h
  rw [hsplit]
  simp

theorem isPlainType_getD {d : Dialect} {base default : String} (h : IsPlainType default) :
    IsPlainType ((d.nativeType? base).getD default) := by
  cases hn : d.nativeType? base with
  | none => simpa using h
  | some native => simpa using d.nativeTypes_plain _ (mem_of_nativeType? hn)

theorem isPlainType_base {t : TypeToken} (h : t.keepsParams = true) : IsPlainType t.base := by
  simp only [TypeToken.keepsParams, List.mem_cons, List.not_mem_nil, or_false,
    decide_eq_true_eq] at h
  rcases h with h | h | h | h <;> rw [h] <;> decide

theorem isPlainType_trim {token : String} (h : IsPlainType token) :
    IsPlainType (Text.trim token) :=
  fun c hc => h c (Text.mem_of_mem_trim hc)

/-- A plain token has a plain native type. -/
theorem isPlainType_convertType (d : Dialect) {token : String} (h : IsPlainType token) :
    IsPlainType (d.convertType token) := by
  unfold convertType
  split
  · exact h
  · exact isPlainType_getD (by decide)
  · dsimp only
    split
    · rename_i params hparams
      split
      · rename_i hkeeps
        intro c hc
        simp only [String.toList_append, List.mem_append] at hc
        rcases hc with ((hc | hc) | hc) | hc
        · exact isPlainType_getD (isPlainType_base hkeeps) c hc
        · exact (by decide : IsPlainType "(") c hc
        · exact h c (TypeToken.mem_of_mem_params hparams hc)
        · exact (by decide : IsPlainType ")") c hc
      · exact isPlainType_trim h
    · exact isPlainType_getD (isPlainType_trim h)

end Dialect
end SchemaScript
