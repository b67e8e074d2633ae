import SchemaScript.Proofs.Text.Case
import SchemaScript.Proofs.Types.Conversion

/-!
# SchemaScript.Proofs.Types.Parameters

Parameters of type tokens. A token has parameters if it is a keyword with a text in brackets behind
it, whatever white space is around the two (`params_isSome_iff`), and they are the text between the
first bracket and the last one, without the white space at its ends (`parse_of_isWritten`). They go
with four keywords into every dialect that has types of its own but SQLite, and all other tokens
with parameters are passed on as they are (`parameters_kept`).
-/

namespace SchemaScript

namespace TypeToken

/-- The token is the keyword with the parameters in brackets behind it. There may be white space in
front of the keyword, behind it, and at the end. -/
def IsWritten (token keyword params : String) : Prop :=
  ∃ before between after : String,
    Text.allBlank before = true ∧ Text.allBlank between = true ∧ Text.allBlank after = true ∧
    token = before ++ keyword ++ between ++ "(" ++ params ++ ")" ++ after

/-- The token is some keyword with some parameters in one line. -/
def IsParameterized (token : String) : Prop :=
  ∃ keyword params : String, isKeyword keyword.toList = true ∧ '\n' ∉ params.toList ∧
    IsWritten token keyword params

/-- The keywords that keep their parameters. -/
def keptKeywords : List String :=
  ["VARCHAR", "CHAR", "DECIMAL", "NUMERIC"]

/-- The token is such a keyword, spelled in any case, with these parameters. -/
def IsKept (token keyword params : String) : Prop :=
  keyword ∈ keptKeywords ∧ '\n' ∉ params.toList ∧
    ∃ spelling, Text.equalAsciiCase spelling keyword = true ∧ IsWritten token spelling params

/-! ## Keywords -/

theorem toNat_lt_of_isWordChar {c : Char} (h : isWordChar c = true) : c.toNat < 128 := by
  have hZ : 'Z'.val.toNat = 90 := rfl
  have hz : 'z'.val.toNat = 122 := rfl
  have h9 : '9'.val.toNat = 57 := rfl
  have hc : c.toNat = c.val.toNat := rfl
  simp only [isWordChar, isLetter, Bool.or_eq_true, Bool.and_eq_true, decide_eq_true_eq,
    Char.le_def, UInt32.le_iff_toNat_le, beq_iff_eq] at h
  rcases h with ((h | h) | rfl) | rfl
  · omega
  · omega
  · decide
  · decide

theorem isAscii_of_isKeyword {keyword : List Char} (h : isKeyword keyword = true) :
    Text.IsAscii keyword :=
  fun c hc => toNat_lt_of_isWordChar (isWordChar_of_mem h c hc)

theorem isAscii_trimEnd {keyword : String} (h : isKeyword keyword.toList = true) :
    Text.IsAscii (Text.trimEnd keyword).toList := by
  rw [Text.trimEnd, String.toList_ofList]
  exact isAscii_of_isKeyword (isKeyword_trimEndChars h)

/-! ## Tokens as they are written -/

/-- A token is read as it is written. -/
theorem parse_of_isWritten {token keyword params : String}
    (hkeyword : isKeyword keyword.toList = true) (hfeed : '\n' ∉ params.toList)
    (h : IsWritten token keyword params) :
    parse token = ⟨Text.upper (Text.trimEnd keyword), some (Text.trim params)⟩ := by
  obtain ⟨before, between, after, hbefore, hbetween, hafter, rfl⟩ := h
  have hchars : (before ++ keyword ++ between ++ "(" ++ params ++ ")" ++ after).toList =
      before.toList ++ (keyword.toList ++ between.toList ++ '(' :: (params.toList ++ [')'])) ++
        after.toList := by
    simp
  have hlast : (keyword.toList ++ between.toList ++ '(' :: (params.toList ++ [')'])).getLast? =
      some ')' := by
    rw [← List.cons_append, ← List.append_assoc, List.getLast?_concat]
  have hhead : (keyword.toList ++ between.toList ++ '(' :: (params.toList ++ [')'])).head?.any
      Text.isBlank = false := by
    rw [List.append_assoc]
    exact head?_of_isKeyword hkeyword _
  have htrim := Text.trimChars_between (Text.toList_allBlank hbefore) (Text.toList_allBlank hafter)
    hhead (by rw [hlast]; decide)
  rw [parse, hchars, htrim, split?_spaced hkeyword (Text.toList_allBlank hbetween) hfeed]
  simp only [Text.upper, Text.trimEnd, Text.trim, String.toList_ofList]

/-- Parameters are found in the tokens that are written with some, and in no others. -/
theorem params_isSome_iff {token : String} :
    (parse token).params.isSome = true ↔ IsParameterized token := by
  constructor
  · intro h
    obtain ⟨before, after, hbefore, hafter, htoken⟩ := Text.exists_trimChars token.toList
    simp only [parse] at h
    split at h
    · rename_i keyword params hsplit
      obtain ⟨hkeyword, between, inner, hbetween, hfeed, -, htrim⟩ := split?_inversion hsplit
      refine ⟨String.ofList keyword, String.ofList inner, by rwa [String.toList_ofList],
        by rwa [String.toList_ofList], String.ofList before, String.ofList between,
        String.ofList after, Text.allBlank_ofList hbefore, Text.allBlank_ofList hbetween,
        Text.allBlank_ofList hafter, ?_⟩
      rw [← String.toList_inj, htoken, htrim]
      simp
    · cases h
  · rintro ⟨keyword, params, hkeyword, hfeed, hwritten⟩
    rw [parse_of_isWritten hkeyword hfeed hwritten]
    rfl

/-! ## Spellings -/

theorem keepsParams_iff {t : TypeToken} : t.keepsParams = true ↔ t.base ∈ keptKeywords := by
  rw [keepsParams, decide_eq_true_eq, keptKeywords]

theorem isCapitalKeyword_of_mem {keyword : String} (h : keyword ∈ keptKeywords) :
    IsCapitalKeyword keyword := by
  have hkeywords : ∀ k ∈ keptKeywords, IsCapitalKeyword k := by decide
  exact hkeywords keyword h

theorem isLetter_toUpper (c : Char) : isLetter c.toUpper = isLetter c :=
  Text.related_of_ascii Text.toUpper_eq_self (r := fun c d => isLetter d = isLetter c) (by decide)
    (fun _ => rfl) c

theorem isWordChar_toUpper (c : Char) : isWordChar c.toUpper = isWordChar c :=
  Text.related_of_ascii Text.toUpper_eq_self (r := fun c d => isWordChar d = isWordChar c)
    (by decide) (fun _ => rfl) c

theorem isKeyword_map_toUpper (keyword : List Char) :
    isKeyword (keyword.map Char.toUpper) = isKeyword keyword := by
  cases keyword with
  | nil => rfl
  | cons c rest =>
    have hword : isWordChar ∘ Char.toUpper = isWordChar := funext isWordChar_toUpper
    rw [List.map_cons, isKeyword, isKeyword, isLetter_toUpper, List.all_map, hword]

/-- A keyword in another case is a keyword with the same capital form. -/
theorem isKeyword_of_equalAsciiCase {spelling keyword : String}
    (hkeyword : IsCapitalKeyword keyword) (h : Text.equalAsciiCase spelling keyword = true) :
    isKeyword spelling.toList = true ∧ Text.upper (Text.trimEnd spelling) = keyword := by
  obtain ⟨hform, hend, hcapital⟩ := hkeyword
  obtain ⟨hascii, hupper⟩ :=
    (Text.equalAsciiCase_iff (isAscii_of_isKeyword hform) hcapital).mp h
  have hchars : spelling.toList.map Char.toUpper = keyword.toList := by
    rw [← Text.upperChars_eq_map hascii, ← hupper, Text.upper, String.toList_ofList]
  have htrim : Text.IsAscii (Text.trimEndChars spelling.toList) :=
    fun c hc => hascii c (Text.mem_of_mem_trimEndChars hc)
  refine ⟨by rw [← isKeyword_map_toUpper, hchars, hform], ?_⟩
  rw [Text.upper, Text.trimEnd, String.toList_ofList, Text.upperChars_eq_map htrim,
    ← Text.trimEndChars_map Text.isBlank_toUpper, hchars, hend, String.ofList_toList]

theorem IsKept.parse_eq {token keyword params : String} (h : IsKept token keyword params) :
    parse token = ⟨keyword, some (Text.trim params)⟩ := by
  obtain ⟨hkept, hfeed, spelling, hspelling, hwritten⟩ := h
  obtain ⟨hkeyword, hupper⟩ :=
    isKeyword_of_equalAsciiCase (isCapitalKeyword_of_mem hkept) hspelling
  rw [parse_of_isWritten hkeyword hfeed hwritten, hupper]

/-- The blanks at the end of a keyword can as well be counted as white space behind it. -/
theorem IsWritten.trimEnd {token keyword params : String} (h : IsWritten token keyword params) :
    IsWritten token (Text.trimEnd keyword) params := by
  obtain ⟨before, between, after, hbefore, hbetween, hafter, rfl⟩ := h
  obtain ⟨blanks, hblanks, hkeyword⟩ := Text.exists_trimEndChars keyword.toList
  refine ⟨before, String.ofList blanks ++ between, after, hbefore, ?_, hafter, ?_⟩
  · rw [Text.allBlank, String.toList_append, String.toList_ofList, List.all_append,
      List.all_eq_true.mpr hblanks, Bool.true_and]
    exact hbetween
  · rw [← String.toList_inj]
    simp only [String.toList_append, Text.trimEnd, String.toList_ofList]
    rw [hkeyword, Text.trimEndChars_append hblanks, Text.trimEndChars_trimEndChars]
    simp only [List.append_assoc]

/-- A token with parameters that is read as one of those that keep them is written as such. -/
theorem isKept_of_keepsParams {token : String} (h : IsParameterized token)
    (hkeeps : (parse token).keepsParams = true) :
    ∃ keyword params, IsKept token keyword params := by
  obtain ⟨spelling, params, hspelling, hfeed, hwritten⟩ := h
  have hbase := congrArg TypeToken.base (parse_of_isWritten hspelling hfeed hwritten)
  have hkept := keepsParams_iff.mp hkeeps
  obtain ⟨hform, -, hcapital⟩ := isCapitalKeyword_of_mem hkept
  have hascii := isAscii_trimEnd hspelling
  exact ⟨(parse token).base, params, hkept, hfeed, Text.trimEnd spelling,
    (Text.equalAsciiCase_iff (isAscii_of_isKeyword hform) hcapital).mpr ⟨hascii, hbase.symm⟩,
    hwritten.trimEnd⟩

end TypeToken

namespace Dialect

/-- Every dialect with types of its own has a type for the keywords that keep their parameters. -/
theorem nativeType?_of_isKept {d : Dialect} (hmongo : d ≠ mongoDb) {token keyword params : String}
    (h : TypeToken.IsKept token keyword params) :
    ∃ native, d.nativeType? keyword = some native := by
  have hkeywords : ∀ k ∈ TypeToken.keptKeywords, d ≠ mongoDb →
      (d.nativeType? k).isSome = true := by
    cases d <;> decide +kernel
  exact Option.isSome_iff_exists.mp (hkeywords keyword h.1 hmongo)

theorem convertType_sqlite_mem (token : String) :
    sqlite.convertType token ∈ ["INTEGER", "REAL", "TEXT", "BLOB"] := by
  have hnames : ∀ e ∈ sqlite.nativeTypes, e.2 ∈ ["INTEGER", "REAL", "TEXT", "BLOB"] := by decide
  rw [convertType]
  cases hnative : sqlite.nativeType? (TypeToken.parse token).base with
  | none => decide
  | some native => exact hnames _ (mem_of_nativeType? hnative)

/-- Parameters survive. In the dialects that have more types than the storage classes of SQLite they
go, without the white space around them, in brackets behind the native names of four keywords; all
other tokens with parameters stay as they are but for the white space around them. SQLite has its
storage classes only. -/
theorem parameters_kept :
    (∀ token keyword params, TypeToken.IsKept token keyword params →
      sqlite.nativeType? keyword = some (sqlite.convertType token) ∧
      ∀ d, d ≠ mongoDb → d ≠ sqlite → ∃ native, d.nativeType? keyword = some native ∧
        d.convertType token = native ++ "(" ++ Text.trim params ++ ")") ∧
    (∀ token, TypeToken.IsParameterized token →
      (∀ keyword params, ¬ TypeToken.IsKept token keyword params) →
      ∀ d, d ≠ mongoDb → d ≠ sqlite → d.convertType token = Text.trim token) ∧
    ∀ token, sqlite.convertType token ∈ ["INTEGER", "REAL", "TEXT", "BLOB"] := by
  refine ⟨fun token keyword params hkept => ?_, fun token hparams hother d hmongo hsqlite => ?_,
    convertType_sqlite_mem⟩
  · have hparse := hkept.parse_eq
    refine ⟨?_, fun d hmongo hsqlite => ?_⟩
    · obtain ⟨storage, hstorage⟩ := nativeType?_of_isKept (d := sqlite) (by decide) hkept
      simp only [convertType, hparse, hstorage, Option.getD_some]
    · obtain ⟨native, hnative⟩ := nativeType?_of_isKept hmongo hkept
      have hkeeps : TypeToken.keepsParams ⟨keyword, some (Text.trim params)⟩ = true :=
        TypeToken.keepsParams_iff.mpr hkept.1
      refine ⟨native, hnative, ?_⟩
      rw [convertType_eq hmongo hsqlite, hparse]
      simp only [hkeeps, if_true, nativeKeyword, hnative, Option.getD_some]
  · obtain ⟨params, hsome⟩ :=
      Option.isSome_iff_exists.mp (TypeToken.params_isSome_iff.mpr hparams)
    have hdrops : ¬ (TypeToken.parse token).keepsParams = true := by
      intro hkeeps
      obtain ⟨keyword, params, hkept⟩ := TypeToken.isKept_of_keepsParams hparams hkeeps
      exact hother keyword params hkept
    rw [convertType_eq hmongo hsqlite, hsome]
    exact if_neg hdrops

theorem parameters_kept_paddedTokens :
    let token := "\tVarChar \n( ')', (2) ) "
    let other := " enum ('a', 'b')\n"
    TypeToken.IsKept token "VARCHAR" " ')', (2) " ∧
    sqlite.nativeType? "VARCHAR" = some (sqlite.convertType token) ∧
    oracle.convertType token = "VARCHAR2(')', (2))" ∧
    TypeToken.IsParameterized other ∧
    (∀ keyword params, ¬ TypeToken.IsKept other keyword params) ∧
    mySql.convertType other = "enum ('a', 'b')" := by
  intro token other
  obtain ⟨hkeeps, hpasses, -⟩ := parameters_kept
  have hkept : TypeToken.IsKept token "VARCHAR" " ')', (2) " :=
    ⟨by decide, by decide, "VarChar", by decide, "\t", " \n", " ", by decide⟩
  have hother : TypeToken.IsParameterized other :=
    ⟨"enum", "'a', 'b'", by decide, by decide, " ", " ", "\n", by decide⟩
  have hdropped : ∀ keyword params, ¬ TypeToken.IsKept other keyword params := by
    intro keyword params h
    have hbase : "ENUM" ∈ TypeToken.keptKeywords := by
      have hkeyword := congrArg TypeToken.base h.parse_eq
      rw [show (TypeToken.parse other).base = "ENUM" by decide] at hkeyword
      exact hkeyword ▸ h.1
    exact absurd hbase (by decide)
  obtain ⟨hstorage, hnative⟩ := hkeeps token _ _ hkept
  obtain ⟨native, hname, htype⟩ := hnative oracle (by decide) (by decide)
  obtain rfl : native = "VARCHAR2" := by
    rw [show oracle.nativeType? "VARCHAR" = some "VARCHAR2" by decide] at hname
    exact (Option.some.inj hname).symm
  have htext : "VARCHAR2" ++ "(" ++ Text.trim " ')', (2) " ++ ")" = "VARCHAR2(')', (2))" := by
    decide +kernel
  have htrim : Text.trim other = "enum ('a', 'b')" := by decide +kernel
  refine ⟨hkept, hstorage, htype.trans htext, hother, hdropped, ?_⟩
  rw [← htrim]
  exact hpasses other hother hdropped mySql (by decide) (by decide)

end Dialect
end SchemaScript
