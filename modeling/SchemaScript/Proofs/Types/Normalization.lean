import Mathlib.Data.List.Find
import SchemaScript.Model.Column
import SchemaScript.Proofs.Text.Infix
import SchemaScript.Proofs.Types.Parameters
import SchemaScript.Types.Storage

/-!
# SchemaScript.Proofs.Types.Normalization

Type tokens of columns that are built step by step have their keyword in capitals, with no white
space around it; those of columns that are read from a document are as they are. For what is done
with the types of columns the two do not differ (`normalized_alike`), where tokens are ASCII texts.

A token is divided at its first bracket into a front and a back (`exists_gap`), and its normal form
is the front in capitals with the back behind it (`toList_normalizeToken`). The normal form is
divided into these two again, so that it has the same parameters (`parse_normalizeToken`), and it
has the same words as the token (`infix_normalizeToken`).
-/

namespace SchemaScript

/-! ## Normal forms -/

section Normal

open TypeToken

variable {token : String}

theorem toList_normalizeToken (token : String) :
    (normalizeToken token).toList =
      Text.upperChars (front (Text.trimChars token.toList)) ++
        back (Text.trimChars token.toList) := by
  have hlast := Text.getLast?_trimChars token.toList
  rw [normalizeToken]
  generalize Text.trimChars token.toList = cs at hlast
  cases hback : back cs with
  | nil =>
    simp only [show cs.dropWhile (· ≠ '(') = [] from hback, String.toList_ofList, List.append_nil]
    rw [front_eq_self hlast hback]
  | cons c rest =>
    simp only [show cs.dropWhile (· ≠ '(') = c :: rest from hback, String.toList_ofList]
    rfl

theorem head?_front {cs : List Char} (h : cs.head?.any Text.isBlank = false) :
    (front cs).head?.any Text.isBlank = false := by
  refine Text.head?_trimEndChars ?_
  cases cs with
  | nil => rfl
  | cons c cs =>
    rw [List.takeWhile_cons]
    split
    · exact h
    · rfl

theorem mem_of_mem_front {cs : List Char} {c : Char} (h : c ∈ front cs) : c ∈ cs :=
  (List.takeWhile_sublist _).mem (Text.mem_of_mem_trimEndChars h)

theorem isAscii_front (h : Text.IsAscii token.toList) :
    Text.IsAscii (front (Text.trimChars token.toList)) :=
  fun c hc => h c (Text.mem_of_mem_trimChars (mem_of_mem_front hc))

theorem toList_normalizeToken_ascii (h : Text.IsAscii token.toList) :
    (normalizeToken token).toList =
      (front (Text.trimChars token.toList)).map Char.toUpper ++
        back (Text.trimChars token.toList) := by
  rw [toList_normalizeToken, Text.upperChars_eq_map (isAscii_front h)]

/-- The normal form of an ASCII text has no white space around it. -/
theorem trimChars_normalizeToken (h : Text.IsAscii token.toList) :
    Text.trimChars (normalizeToken token).toList = (normalizeToken token).toList := by
  have hhead := head?_front (Text.head?_trimChars token.toList)
  have hlast := Text.getLast?_trimChars token.toList
  rw [toList_normalizeToken_ascii h]
  generalize Text.trimChars token.toList = cs at hhead hlast
  have hend := Text.getLast?_trimEndChars (cs.takeWhile (· ≠ '('))
  rw [← front] at hend
  obtain ⟨gap, -, hcs⟩ := exists_gap cs
  rcases head?_back cs with hback | ⟨rest, hback⟩
  · rw [hback, List.append_nil]
    refine Text.trimChars_eq_self ?_ ?_
    · rwa [List.head?_map, Text.any_isBlank_map_toUpper]
    · rwa [List.getLast?_map, Text.any_isBlank_map_toUpper]
  · refine Text.trimChars_eq_self ?_ ?_
    · rw [hback, List.head?_append, List.head?_map]
      cases hfront : (front cs).head? with
      | none => rfl
      | some c =>
        rw [hfront] at hhead
        exact (Text.isBlank_toUpper c).trans hhead
    · rw [hcs, hback, List.getLast?_append_cons] at hlast
      rwa [hback, List.getLast?_append_cons]

theorem toUpper_eq_bracket {c : Char} : c.toUpper = '(' ↔ c = '(' :=
  Text.related_of_ascii Text.toUpper_eq_self (r := fun c d => d = '(' ↔ c = '(') (by decide)
    (fun _ => Iff.rfl) c

/-- It is divided into the front of the token, in capitals, and the back of the token. -/
theorem divide_normalizeToken (h : Text.IsAscii token.toList) :
    front (normalizeToken token).toList =
        (front (Text.trimChars token.toList)).map Char.toUpper ∧
      back (normalizeToken token).toList = back (Text.trimChars token.toList) := by
  have hkeyword : ∀ c ∈ (front (Text.trimChars token.toList)).map Char.toUpper, c ≠ '(' := by
    intro c hc
    obtain ⟨d, hd, rfl⟩ := List.mem_map.mp hc
    rw [ne_eq, toUpper_eq_bracket]
    exact ne_bracket_of_mem_front hd
  rw [toList_normalizeToken_ascii h]
  obtain ⟨hfront, hback⟩ := divide_append hkeyword (head?_back (Text.trimChars token.toList))
  refine ⟨?_, hback⟩
  rw [hfront, Text.trimEndChars_map Text.isBlank_toUpper, front, Text.trimEndChars_trimEndChars]

theorem isAscii_normalizeToken (h : Text.IsAscii token.toList) :
    Text.IsAscii (normalizeToken token).toList := by
  rw [toList_normalizeToken_ascii h, Text.isAscii_append, Text.isAscii_map_toUpper]
  exact ⟨isAscii_front h,
    fun c hc => h c (Text.mem_of_mem_trimChars ((List.dropWhile_sublist _).mem hc))⟩

/-- Normal forms are normal. -/
theorem normalizeToken_normalizeToken (h : Text.IsAscii token.toList) :
    normalizeToken (normalizeToken token) = normalizeToken token := by
  obtain ⟨hfront, hback⟩ := divide_normalizeToken h
  rw [← String.toList_inj, toList_normalizeToken_ascii (isAscii_normalizeToken h),
    trimChars_normalizeToken h, hfront, hback, Text.map_toUpper_toUpper,
    ← toList_normalizeToken_ascii h]

/-- A token beside its normal form: the same back behind the same front, up to letter case and white
space. -/
theorem exists_parts (h : Text.IsAscii token.toList) :
    ∃ front gap back : List Char,
      (∀ c ∈ front, c ≠ '(') ∧ (∀ c ∈ gap, Text.isBlank c = true) ∧
      (back = [] ∧ gap = [] ∨ ∃ rest, back = '(' :: rest) ∧
      Text.trimChars token.toList = front ++ gap ++ back ∧
      (normalizeToken token).toList = front.map Char.toUpper ++ back := by
  obtain ⟨gap, hgap, hcs⟩ := exists_gap (Text.trimChars token.toList)
  refine ⟨_, gap, _, fun c => ne_bracket_of_mem_front, hgap, ?_, hcs,
    toList_normalizeToken_ascii h⟩
  rcases head?_back (Text.trimChars token.toList) with hback | hback
  · left
    rw [front_eq_self (Text.getLast?_trimChars token.toList) hback, hback] at hcs
    exact ⟨hback, by simpa using hcs⟩
  · exact .inr hback

/-! ## What is read from a normal form -/

theorem split?_normalizeToken (h : Text.IsAscii token.toList) :
    split? (normalizeToken token).toList =
      (split? (Text.trimChars token.toList)).map fun parts =>
        (parts.1.map Char.toUpper, parts.2) := by
  obtain ⟨hfront, hback⟩ := divide_normalizeToken h
  rw [split?_eq, split?_eq, hfront, hback, isKeyword_map_toUpper]
  cases back (Text.trimChars token.toList) with
  | nil => rfl
  | cons c rest =>
    simp only
    split <;> rfl

theorem upperChars_map_toUpper {cs : List Char} (h : Text.IsAscii cs) :
    Text.upperChars (cs.map Char.toUpper) = Text.upperChars cs := by
  rw [Text.upperChars_eq_map (Text.isAscii_map_toUpper.mpr h), Text.upperChars_eq_map h,
    Text.map_toUpper_toUpper]

theorem mem_upperChars_bracket {cs : List Char} (h : '(' ∈ cs) : '(' ∈ Text.upperChars cs :=
  List.mem_flatMap.mpr ⟨'(', h, by decide⟩

theorem mem_back {cs rest : List Char} (h : back cs = '(' :: rest) : '(' ∈ cs :=
  (List.dropWhile_sublist _).mem (h ▸ List.mem_cons_self)

theorem isAscii_trimChars (h : Text.IsAscii token.toList) :
    Text.IsAscii (Text.trimChars token.toList) :=
  fun c hc => h c (Text.mem_of_mem_trimChars hc)

theorem isAscii_of_split? {cs keyword params : List Char} (h : split? cs = some (keyword, params)) :
    Text.IsAscii keyword :=
  isAscii_of_isKeyword (split?_inversion h).1

/-- The normal form is read as the token itself, unless neither has parameters and both have a
bracket all the same. -/
theorem parse_normalizeToken (h : Text.IsAscii token.toList) :
    parse (normalizeToken token) = parse token ∨
      ∀ t ∈ [token, normalizeToken token],
        (parse t).params = none ∧ '(' ∈ (parse t).base.toList := by
  have hsplit := split?_normalizeToken h
  have htrim := trimChars_normalizeToken h
  obtain ⟨-, hback⟩ := divide_normalizeToken h
  cases hparts : split? (Text.trimChars token.toList) with
  | some parts =>
    left
    obtain ⟨keyword, params⟩ := parts
    rw [hparts] at hsplit
    simp only [parse, htrim, hsplit, hparts, Option.map_some,
      upperChars_map_toUpper (isAscii_of_split? hparts)]
  | none =>
    rw [hparts] at hsplit
    rcases head?_back (Text.trimChars token.toList) with hnil | ⟨rest, hrest⟩
    · left
      have hchars : (normalizeToken token).toList =
          (Text.trimChars token.toList).map Char.toUpper := by
        rw [toList_normalizeToken_ascii h, hnil, List.append_nil,
          front_eq_self (Text.getLast?_trimChars token.toList) hnil]
      rw [hchars] at hsplit htrim
      simp only [parse, hchars, htrim, hsplit, hparts, Option.map_none,
        upperChars_map_toUpper (isAscii_trimChars h)]
    · right
      have hnormal := mem_upperChars_bracket (mem_back (hback.trans hrest))
      have hgiven := mem_upperChars_bracket (mem_back hrest)
      intro t ht
      rcases List.mem_pair.mp ht with rfl | rfl
      · simpa only [parse, hparts, String.toList_ofList, true_and] using hgiven
      · simpa only [parse, htrim, hsplit, Option.map_none, String.toList_ofList, true_and]
          using hnormal

/-! ## Integers -/

/-- A column is of a plain integer type if its token is one of two words, without parameters. -/
theorem isIntegerTyped_iff_parse (h : Text.IsAscii token.toList) {c : Column}
    (hc : c.dataType = some token) :
    c.isIntegerTyped = true ↔
      (parse token).params = none ∧ (parse token).base ∈ ["INT", "INTEGER"] := by
  have hwords : ∀ word ∈ ["INT", "INTEGER"], Text.IsAscii word.toList ∧ Text.upper word = word ∧
      '(' ∉ word.toList := by decide +kernel
  have htrim : Text.IsAscii (Text.trim token).toList := by
    rw [Text.trim, String.toList_ofList]
    exact isAscii_trimChars h
  have hequal : ∀ word ∈ ["INT", "INTEGER"],
      Text.equalAsciiCase (Text.trim token) word = true ↔ Text.upper (Text.trim token) = word := by
    intro word hword
    obtain ⟨hascii, hcapital, -⟩ := hwords word hword
    rw [Text.equalAsciiCase_iff hascii hcapital]
    exact and_iff_right htrim
  have htyped : c.isIntegerTyped = true ↔ Text.upper (Text.trim token) ∈ ["INT", "INTEGER"] := by
    simp only [Column.isIntegerTyped, hc, Bool.or_eq_true, hequal "INT" (by decide),
      hequal "INTEGER" (by decide), List.mem_pair]
  rw [htyped]
  cases hparts : split? (Text.trimChars token.toList) with
  | none =>
    have hparse : parse token = ⟨Text.upper (Text.trim token), none⟩ := by
      simp only [parse, hparts, Text.upper, Text.trim, String.toList_ofList]
    rw [hparse]
    exact (and_iff_right rfl).symm
  | some parts =>
    obtain ⟨keyword, params⟩ := parts
    have hparams : (parse token).params ≠ none := by
      simp [parse, hparts]
    obtain ⟨-, between, inner, -, -, -, hcs⟩ := split?_inversion hparts
    have hbracket : '(' ∈ (Text.upper (Text.trim token)).toList := by
      rw [Text.upper, Text.trim, String.toList_ofList, String.toList_ofList]
      exact mem_upperChars_bracket (by rw [hcs]; simp)
    exact iff_of_false (fun hmem => (hwords _ hmem).2.2 hbracket) fun hnone => hparams hnone.1

theorem isIntegerTyped_normalizeToken (h : Text.IsAscii token.toList) (c : Column) :
    { c with dataType := some (normalizeToken token) }.isIntegerTyped =
      { c with dataType := some token }.isIntegerTyped := by
  rw [Bool.eq_iff_iff, isIntegerTyped_iff_parse (isAscii_normalizeToken h) rfl,
    isIntegerTyped_iff_parse h rfl]
  rcases parse_normalizeToken h with hparse | hbrackets
  · rw [hparse]
  · have hwords : ∀ word ∈ ["INT", "INTEGER"], '(' ∉ word.toList := by decide
    have hnot : ∀ t ∈ [token, normalizeToken token], (parse t).base ∉ ["INT", "INTEGER"] :=
      fun t ht hmem => hwords _ hmem (hbrackets t ht).2
    exact iff_of_false (fun hn => hnot _ (by simp) hn.2) fun hn => hnot _ (by simp) hn.2

end Normal

/-! ## Classification -/

namespace StorageType

theorem occursIn_iff {word cs : List Char} : occursIn word cs = true ↔ word <:+: cs := by
  induction cs with
  | nil =>
    rw [occursIn, List.isEmpty_iff]
    exact ⟨fun h => h ▸ List.infix_rfl, List.eq_nil_of_infix_nil⟩
  | cons c cs ih =>
    rw [occursIn, Bool.or_eq_true, ih, List.isPrefixOf_iff_prefix, List.infix_cons_iff]

/-- A word that white space and brackets are no part of. -/
def IsPlainWord (word : List Char) : Prop :=
  word ≠ [] ∧ ∀ c ∈ word, Text.isBlank c = false ∧ c ≠ '('

instance (word : List Char) : Decidable (IsPlainWord word) :=
  decidable_of_iff (word ≠ [] ∧ word.all (fun c => !Text.isBlank c && c != '(') = true)
    (by simp [IsPlainWord])

theorem IsPlainWord.not_mem {word blanks : List Char} (h : IsPlainWord word)
    (hblanks : ∀ c ∈ blanks, Text.isBlank c = true) :
    ∀ c ∈ blanks.map Char.toLower, c ∉ word := by
  intro c hc hword
  obtain ⟨d, hd, rfl⟩ := List.mem_map.mp hc
  have hblank := (Text.isBlank_toLower d).trans (hblanks d hd)
  rw [(h.2 _ hword).1] at hblank
  cases hblank

/-- The same words occur in a token and in its normal form. -/
theorem infix_normalizeToken {token : String} (h : Text.IsAscii token.toList) {word : List Char}
    (hword : IsPlainWord word) :
    word <:+: Text.lowerChars (normalizeToken token).toList ↔
      word <:+: Text.lowerChars token.toList := by
  obtain ⟨before, after, hbefore, hafter, htoken⟩ := Text.exists_trimChars token.toList
  obtain ⟨front, gap, back, -, hgap, hback, htrim, hnormal⟩ := exists_parts h
  have hopen : ∀ c ∈ (back.map Char.toLower).head?, c ∉ word := by
    rcases hback with ⟨rfl, -⟩ | ⟨rest, rfl⟩
    · simp
    · intro c hc hmem
      obtain rfl : c = '(' := by simpa using hc.symm
      exact (hword.2 _ hmem).2 rfl
  rw [Text.lowerChars_eq_map (isAscii_normalizeToken h), Text.lowerChars_eq_map h, hnormal, htoken,
    htrim]
  simp only [List.map_append, Text.map_toLower_toUpper]
  rw [Text.infix_append_right hword.1 (hword.not_mem hafter),
    Text.infix_append_left hword.1 (hword.not_mem hbefore), Text.infix_append_iff_or hopen,
    Text.infix_append_iff_or hopen, Text.infix_append_right hword.1 (hword.not_mem hgap)]

theorem classify_normalizeToken {token : String} (h : Text.IsAscii token.toList) :
    classify (some (normalizeToken token)) = classify (some token) := by
  have hplain : ∀ e ∈ keywords, ∀ word ∈ e.2, IsPlainWord word.toList := by decide +kernel
  have hfind : (keywords.find? fun entry => entry.2.any fun word =>
        occursIn word.toList (Text.lowerChars (normalizeToken token).toList)) =
      keywords.find? fun entry => entry.2.any fun word =>
        occursIn word.toList (Text.lowerChars token.toList) := by
    refine List.find?_congr fun entry hentry => ?_
    rw [Bool.eq_iff_iff, List.any_eq_true, List.any_eq_true]
    refine exists_congr fun word => and_congr_right fun hword => ?_
    rw [occursIn_iff, occursIn_iff]
    exact infix_normalizeToken h (hplain entry hentry word hword)
  rw [classify, classify, ofToken, ofToken, hfind]

end StorageType

/-! ## Conversion -/

namespace Dialect

/-- What a dialect with more types than the storage classes of SQLite makes of a token, unless it
passes the token on. -/
def translation? (d : Dialect) (token : String) : Option String :=
  match (TypeToken.parse token).params with
  | some params =>
    if (TypeToken.parse token).keepsParams then
      some (d.nativeKeyword (TypeToken.parse token).base ++ "(" ++ params ++ ")")
    else none
  | none => d.nativeType? (TypeToken.parse token).base

variable {d : Dialect} {token : String}

theorem convertType_eq_getD (hmongo : d ≠ mongoDb) (hsqlite : d ≠ sqlite) (token : String) :
    d.convertType token = (d.translation? token).getD (Text.trim token) := by
  rw [convertType_eq hmongo hsqlite, translation?]
  cases (TypeToken.parse token).params with
  | none => rfl
  | some params =>
    simp only
    split <;> rfl

/-- No dialect knows a keyword with a bracket. -/
theorem nativeType?_eq_none {keyword : String} (h : '(' ∈ keyword.toList) :
    d.nativeType? keyword = none := by
  have hplain : ∀ e ∈ d.nativeTypes, '(' ∉ e.1.toList := by
    cases d <;> decide
  cases hnative : d.nativeType? keyword with
  | none => rfl
  | some native => exact absurd h (hplain _ (mem_of_nativeType? hnative))

theorem translation?_normalizeToken (h : Text.IsAscii token.toList) :
    d.translation? (normalizeToken token) = d.translation? token := by
  rcases parse_normalizeToken h with hparse | hbrackets
  · rw [translation?, translation?, hparse]
  · have hnone : ∀ t ∈ [token, normalizeToken token], d.translation? t = none := by
      intro t ht
      obtain ⟨hparams, hbracket⟩ := hbrackets t ht
      rw [translation?, hparams]
      exact nativeType?_eq_none hbracket
    rw [hnone _ (by simp), hnone _ (by simp)]

theorem convertType_sqlite_normalizeToken (h : Text.IsAscii token.toList) :
    sqlite.convertType (normalizeToken token) = sqlite.convertType token := by
  rcases parse_normalizeToken h with hparse | hbrackets
  · rw [convertType, convertType, hparse]
  · have htext : ∀ t ∈ [token, normalizeToken token], sqlite.convertType t = "TEXT" := by
      intro t ht
      simp only [convertType, nativeType?_eq_none (hbrackets t ht).2, Option.getD_none]
    rw [htext _ (by simp), htext _ (by simp)]

end Dialect

/-- The texts differ in the case of the letters in front of the first bracket, and in white space
right in front of it, and in nothing else. -/
def IsRespelled (s t : String) : Prop :=
  ∃ keyword keyword' gap back : String,
    '(' ∉ keyword.toList ∧ '(' ∉ keyword'.toList ∧ Text.equalAsciiCase keyword keyword' = true ∧
    Text.allBlank gap = true ∧ (back = "" ∧ gap = "" ∨ back.toList.head? = some '(') ∧
    s = keyword ++ back ∧ t = keyword' ++ gap ++ back

theorem isRespelled_normalizeToken {token : String} (h : Text.IsAscii token.toList) :
    IsRespelled (normalizeToken token) (Text.trim token) := by
  obtain ⟨front, gap, back, hfront, hgap, hback, htrim, hnormal⟩ := exists_parts h
  refine ⟨String.ofList (front.map Char.toUpper), String.ofList front, String.ofList gap,
    String.ofList back, ?_, ?_, ?_, Text.allBlank_ofList hgap, ?_, ?_, ?_⟩
  · rw [String.toList_ofList]
    intro hmem
    obtain ⟨c, hc, hopen⟩ := List.mem_map.mp hmem
    exact hfront c hc (toUpper_eq_bracket.mp hopen)
  · rw [String.toList_ofList]
    exact fun hmem => hfront _ hmem rfl
  · rw [Text.equalAsciiCase, String.toList_ofList, String.toList_ofList, Text.map_toLower_toUpper,
      beq_self_eq_true]
  · rcases hback with ⟨rfl, rfl⟩ | ⟨rest, rfl⟩
    · exact .inl ⟨rfl, rfl⟩
    · exact .inr (by rw [String.toList_ofList]; rfl)
  · rw [← String.toList_inj, hnormal, String.toList_append, String.toList_ofList,
      String.toList_ofList]
  · rw [Text.trim, htrim]
    simp only [String.ofList_append]

/-- Columns that are built and columns that are read from a document are exported alike. For an
ASCII token and its normal form the same columns are plain integers, fields have the same storage
type, and native types are the same but where a dialect knows neither text and passes it on. -/
theorem normalized_alike (token : String) (h : Text.IsAscii token.toList) :
    let normal := normalizeToken token
    (∀ name, (Column.typed name token).dataType = some normal) ∧
    normalizeToken normal = normal ∧
    (∀ c : Column,
      { c with dataType := some normal }.isIntegerTyped =
        { c with dataType := some token }.isIntegerTyped ∧
      ({ c with dataType := some token }.isIntegerTyped = true ↔
        (TypeToken.parse token).params = none ∧
          (TypeToken.parse token).base ∈ ["INT", "INTEGER"])) ∧
    StorageType.classify (some normal) = StorageType.classify (some token) ∧
    Dialect.sqlite.convertType normal = Dialect.sqlite.convertType token ∧
    ∀ d : Dialect, d ≠ .mongoDb → d ≠ .sqlite →
      d.convertType normal = d.convertType token ∨
      (d.translation? normal = none ∧ d.translation? token = none ∧
        d.convertType normal = normal ∧ d.convertType token = Text.trim token ∧
        IsRespelled normal (Text.trim token)) := by
  intro normal
  refine ⟨fun _ => rfl, normalizeToken_normalizeToken h,
    fun c => ⟨isIntegerTyped_normalizeToken h c, isIntegerTyped_iff_parse h rfl⟩,
    StorageType.classify_normalizeToken h, Dialect.convertType_sqlite_normalizeToken h,
    fun d hmongo hsqlite => ?_⟩
  have hsame := Dialect.translation?_normalizeToken (d := d) h
  have hnormal : Text.trim normal = normal := by
    rw [Text.trim, trimChars_normalizeToken h, String.ofList_toList]
  rw [Dialect.convertType_eq_getD hmongo hsqlite, Dialect.convertType_eq_getD hmongo hsqlite, hsame,
    hnormal]
  cases hnative : d.translation? token with
  | some native => exact .inl rfl
  | none => exact .inr ⟨rfl, rfl, rfl, rfl, isRespelled_normalizeToken h⟩

theorem normalized_alike_paddedToken :
    let token := " Enum \t('Open', 'closed') "
    let c := (Column.untyped "state").nullable false
    Text.IsAscii token.toList ∧
    normalizeToken token = "ENUM('Open', 'closed')" ∧
    { c with dataType := some (normalizeToken token) }.isIntegerTyped =
      { c with dataType := some token }.isIntegerTyped ∧
    StorageType.classify (some (normalizeToken token)) = StorageType.classify (some token) ∧
    Dialect.oracle.convertType (normalizeToken token) ≠ Dialect.oracle.convertType token ∧
    Dialect.oracle.convertType (normalizeToken token) = normalizeToken token ∧
    Dialect.oracle.convertType token = "Enum \t('Open', 'closed')" := by
  intro token c
  have h : Text.IsAscii token.toList := by decide +kernel
  have hnormal : normalizeToken token = "ENUM('Open', 'closed')" := by decide +kernel
  have htrim : Text.trim token = "Enum \t('Open', 'closed')" := by decide +kernel
  have hdiffer : Dialect.oracle.convertType (normalizeToken token) ≠
      Dialect.oracle.convertType token := by decide +kernel
  obtain ⟨-, -, hinteger, hstorage, -, hnative⟩ := normalized_alike token h
  obtain ⟨-, -, hsame, hgiven, -⟩ :=
    (hnative .oracle (by decide) (by decide)).resolve_left hdiffer
  exact ⟨h, hnormal, (hinteger c).1, hstorage, hdiffer, hsame, hgiven.trans htrim⟩

end SchemaScript
