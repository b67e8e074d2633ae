import SchemaScript.Proofs.Types.Division
import SchemaScript.Proofs.Types.Native

/-!
# SchemaScript.Proofs.Types.Conversion

Native types are converted to themselves (`convertType_convertType`).

A token becomes a name from the table of the dialect, or such a name with the parameters of the
token, or it stays as it is without the white space around it (`convertType_cases`). Names in the
tables are their own native types (`convertType_native`), parameters that were taken from a token
are found again in the text that they are put into (`parse_written`), and readers of tokens do not
see white space around them (`parse_trim`).
-/

namespace SchemaScript

namespace TypeToken

/-! ## Tokens with parameters -/

/-- A keyword with parameters in brackets. -/
def written (keyword params : List Char) : List Char :=
  keyword ++ '(' :: (params ++ [')'])

theorem params_of_split {token keyword params : List Char}
    (h : split? token = some (keyword, params)) :
    Text.trimChars params = params ∧ '\n' ∉ params := by
  obtain ⟨-, -, inner, -, hfeed, rfl, -⟩ := split?_inversion h
  exact ⟨Text.trimChars_trimChars inner, fun hmem => hfeed (Text.mem_of_mem_trimChars hmem)⟩

theorem params_of_parse {token params : String} (h : (parse token).params = some params) :
    Text.trimChars params.toList = params.toList ∧ '\n' ∉ params.toList := by
  simp only [parse] at h
  split at h
  · rename_i keyword chars hsplit
    cases h
    rw [String.toList_ofList]
    exact params_of_split hsplit
  · cases h

theorem trimChars_written {keyword : List Char} (hkeyword : isKeyword keyword = true)
    (params : List Char) : Text.trimChars (written keyword params) = written keyword params := by
  have hlast : (written keyword params).getLast? = some ')' := by
    rw [written, ← List.cons_append, ← List.append_assoc, List.getLast?_concat]
  refine Text.trimChars_eq_self (head?_of_isKeyword hkeyword _) ?_
  rw [hlast]
  decide

/-- The parts of a token are found in the text that is made of them. -/
theorem split?_written {keyword params : List Char} (hkeyword : isKeyword keyword = true)
    (hend : Text.trimEndChars keyword = keyword) (hparams : Text.trimChars params = params)
    (hfeed : '\n' ∉ params) : split? (written keyword params) = some (keyword, params) := by
  have hspaced : split? (keyword ++ [] ++ '(' :: (params ++ [')'])) = _ :=
    split?_spaced hkeyword (by simp) hfeed
  rwa [List.append_nil, hend, hparams] at hspaced

/-- A word in capitals that can have parameters. -/
def IsCapitalKeyword (keyword : String) : Prop :=
  isKeyword keyword.toList = true ∧ Text.trimEndChars keyword.toList = keyword.toList ∧
    Text.upper keyword = keyword

instance (keyword : String) : Decidable (IsCapitalKeyword keyword) :=
  inferInstanceAs (Decidable (_ ∧ _ ∧ _))

theorem toList_written (keyword params : String) :
    (keyword ++ "(" ++ params ++ ")").toList = written keyword.toList params.toList := by
  simp [written]

theorem parse_written {keyword params : String} (hkeyword : IsCapitalKeyword keyword)
    (hparams : Text.trimChars params.toList = params.toList) (hfeed : '\n' ∉ params.toList) :
    parse (keyword ++ "(" ++ params ++ ")") = ⟨keyword, some params⟩ := by
  obtain ⟨hform, hend, hupper⟩ := hkeyword
  rw [Text.upper] at hupper
  simp only [parse, toList_written, trimChars_written hform,
    split?_written hform hend hparams hfeed, hupper, String.ofList_toList]

theorem trim_written {keyword : String} (hkeyword : IsCapitalKeyword keyword) (params : String) :
    Text.trim (keyword ++ "(" ++ params ++ ")") = keyword ++ "(" ++ params ++ ")" := by
  rw [Text.trim, toList_written, trimChars_written hkeyword.1, ← toList_written,
    String.ofList_toList]

/-- White space around a token does not matter. -/
theorem parse_trim (token : String) : parse (Text.trim token) = parse token := by
  simp only [parse, Text.trim, String.toList_ofList, Text.trimChars_trimChars]

end TypeToken

namespace Dialect

/-! ## Native types -/

/-- A name from the table of a dialect stands for itself. -/
theorem convertType_native (d : Dialect) : ∀ e ∈ d.nativeTypes, d.convertType e.2 = e.2 := by
  cases d <;> decide +kernel

/-- The native name of a keyword that takes its parameters with it. -/
def nativeKeyword (d : Dialect) (keyword : String) : String :=
  (d.nativeType? keyword).getD keyword

/-- Native names that parameters are put behind are keywords themselves, and are translated no
further. -/
theorem nativeKeyword_kept {d : Dialect} (hsqlite : d ≠ .sqlite) {t : TypeToken}
    (h : t.keepsParams = true) :
    TypeToken.IsCapitalKeyword (d.nativeKeyword t.base) ∧
      d.nativeKeyword (d.nativeKeyword t.base) = d.nativeKeyword t.base := by
  have hkeywords : ∀ keyword ∈ ["VARCHAR", "CHAR", "DECIMAL", "NUMERIC"], d ≠ .sqlite →
      TypeToken.IsCapitalKeyword (d.nativeKeyword keyword) ∧
        d.nativeKeyword (d.nativeKeyword keyword) = d.nativeKeyword keyword := by
    cases d <;> decide +kernel
  exact hkeywords t.base (by simpa [TypeToken.keepsParams] using h) hsqlite

/-- The native type where it is not looked up without its parameters. -/
theorem convertType_eq {d : Dialect} (hmongo : d ≠ .mongoDb) (hsqlite : d ≠ .sqlite)
    (token : String) :
    d.convertType token =
      match (TypeToken.parse token).params with
      | some params =>
        if (TypeToken.parse token).keepsParams then
          d.nativeKeyword (TypeToken.parse token).base ++ "(" ++ params ++ ")"
        else Text.trim token
      | none => (d.nativeType? (TypeToken.parse token).base).getD (Text.trim token) := by
  cases d with
  | mongoDb => exact absurd rfl hmongo
  | sqlite => exact absurd rfl hsqlite
  | postgreSql => rfl
  | mySql => rfl
  | oracle => rfl
  | sqlServer => rfl

theorem convertType_trim {d : Dialect} (h : d ≠ .mongoDb) (token : String) :
    d.convertType (Text.trim token) = d.convertType token := by
  by_cases hsqlite : d = .sqlite
  · subst hsqlite
    simp only [convertType, TypeToken.parse_trim]
  · rw [convertType_eq h hsqlite, convertType_eq h hsqlite, TypeToken.parse_trim, Text.trim_trim]

/-- What becomes of a token in a dialect that has types of its own. -/
theorem convertType_cases {d : Dialect} (h : d ≠ .mongoDb) (token : String) :
    (∃ keyword, (keyword, d.convertType token) ∈ d.nativeTypes) ∨
    (d ≠ .sqlite ∧ ∃ params, (TypeToken.parse token).params = some params ∧
      (TypeToken.parse token).keepsParams = true ∧
      d.convertType token =
        d.nativeKeyword (TypeToken.parse token).base ++ "(" ++ params ++ ")") ∨
    d.convertType token = Text.trim token := by
  by_cases hsqlite : d = .sqlite
  · subst hsqlite
    left
    simp only [convertType]
    cases hnative : nativeType? .sqlite (TypeToken.parse token).base with
    | none => exact ⟨"TEXT", by decide⟩
    | some native => exact ⟨_, mem_of_nativeType? hnative⟩
  · rw [convertType_eq h hsqlite]
    cases hparams : (TypeToken.parse token).params with
    | some params =>
      by_cases hkeeps : (TypeToken.parse token).keepsParams = true
      · exact .inr (.inl ⟨hsqlite, params, rfl, hkeeps, if_pos hkeeps⟩)
      · exact .inr (.inr (if_neg hkeeps))
    | none =>
      cases hnative : d.nativeType? (TypeToken.parse token).base with
      | none => exact .inr (.inr rfl)
      | some native => exact .inl ⟨_, mem_of_nativeType? hnative⟩

/-- Parameters go once behind a native keyword, and stay there. -/
theorem convertType_written {d : Dialect} (hmongo : d ≠ .mongoDb) (hsqlite : d ≠ .sqlite)
    {token params : String} (hparams : (TypeToken.parse token).params = some params)
    (hkeeps : (TypeToken.parse token).keepsParams = true) :
    let native := d.nativeKeyword (TypeToken.parse token).base ++ "(" ++ params ++ ")"
    d.convertType native = native := by
  intro native
  obtain ⟨hkeyword, hnative⟩ := nativeKeyword_kept hsqlite hkeeps
  obtain ⟨htrim, hfeed⟩ := TypeToken.params_of_parse hparams
  rw [convertType_eq hmongo hsqlite, TypeToken.parse_written hkeyword htrim hfeed,
    TypeToken.trim_written hkeyword]
  simp only [hnative, ite_self, native]

/-- Conversion is done once: a native type is its own native type. -/
theorem convertType_convertType (d : Dialect) (token : String) :
    d.convertType (d.convertType token) = d.convertType token := by
  by_cases hmongo : d = .mongoDb
  · subst hmongo
    rfl
  rcases convertType_cases hmongo token with
    ⟨keyword, hname⟩ | ⟨hsqlite, params, hparams, hkeeps, htext⟩ | htrim
  · exact d.convertType_native _ hname
  · rw [htext]
    exact convertType_written hmongo hsqlite hparams hkeeps
  · rw [htrim, convertType_trim hmongo, htrim]

end Dialect
end SchemaScript
