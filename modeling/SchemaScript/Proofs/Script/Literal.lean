import SchemaScript.Proofs.Script.Quotation
import SchemaScript.Script.ColumnLine

/-!
# SchemaScript.Proofs.Script.Literal

Default values as the dialects read them. In a literal, all of them end at a quote that is not
doubled; for MySQL a backslash moreover escapes the character behind it.

Literals double their quotes and nothing else. This is enough where a backslash is an ordinary
character. For MySQL a backslash in front of a quote, or at the end of the value, breaks the literal
up, and most others change the value: `defaultLiteral_read_iff` says which literals are read to
their end, as which text, and when this is the value.
-/

namespace SchemaScript

/-- What MySQL reads for a backslash with the given character behind it. The marks of patterns keep
their backslash. -/
def escapeMeaning : Char → List Char
  | '0' => ['\x00']
  | 'b' => ['\x08']
  | 'n' => ['\n']
  | 'r' => ['\r']
  | 't' => ['\t']
  | 'Z' => ['\x1a']
  | '%' => ['\\', '%']
  | '_' => ['\\', '_']
  | c => [c]

/-- What stands in front of the closing quote of a literal with backslashes, and what follows. -/
def readEscaped : List Char → Option (List Char × List Char)
  | [] => none
  | '\\' :: c :: rest => (readEscaped rest).map fun r => (escapeMeaning c ++ r.1, r.2)
  | '\'' :: '\'' :: rest => (readEscaped rest).map fun r => (['\''] ++ r.1, r.2)
  | '\'' :: rest => some ([], rest)
  | c :: rest => (readEscaped rest).map fun r => ([c] ++ r.1, r.2)

/-- The literal that the text starts with, as the dialect reads it, and what follows. -/
def Profile.readLiteral (p : Profile) : List Char → Option (List Char × List Char)
  | '\'' :: cs => if p.dialect = .mySql then readEscaped cs else readQuoted '\'' cs
  | _ => none

/-- No backslash escapes a quote, and none stands at the end with nothing to escape. -/
def keepsQuotes : List Char → Bool
  | '\\' :: c :: rest => c ≠ '\'' && keepsQuotes rest
  | c :: rest => c ≠ '\\' && keepsQuotes rest
  | [] => true

/-- The text with each backslash read together with the character behind it. -/
def unescape : List Char → List Char
  | '\\' :: c :: rest => escapeMeaning c ++ unescape rest
  | c :: rest => c :: unescape rest
  | [] => []

/-- Every backslash stands in front of a mark of patterns. -/
def keepsBackslashes : List Char → Bool
  | [] => true
  | c :: rest =>
    (c ≠ '\\' || rest.head? = some '%' || rest.head? = some '_') && keepsBackslashes rest

/-! ## Literals with backslashes -/

theorem readEscaped_closing {rest : List Char} (h : rest.head? ≠ some '\'') :
    readEscaped ('\'' :: rest) = some ([], rest) := by
  cases rest with
  | nil => rfl
  | cons d rest =>
    rw [readEscaped]
    rintro rest' ⟨⟩
    exact h rfl

theorem readEscaped_other {c : Char} (hb : c ≠ '\\') (hq : c ≠ '\'') (rest : List Char) :
    readEscaped (c :: rest) = (readEscaped rest).map fun r => ([c] ++ r.1, r.2) := by
  rw [readEscaped]
  all_goals simp [hb, hq]

theorem keepsQuotes_escape {c : Char} (hc : c ≠ '\'') (value : List Char) :
    keepsQuotes ('\\' :: c :: value) = keepsQuotes value := by
  simp [keepsQuotes, hc]

theorem keepsQuotes_other {c : Char} (hb : c ≠ '\\') (value : List Char) :
    keepsQuotes (c :: value) = keepsQuotes value := by
  rw [keepsQuotes]
  · simp [hb]
  · exact fun _ _ hc => (hb hc).elim

theorem map_append_eq_some {x : Option (List Char × List Char)} {front text rest : List Char} :
    (x.map fun r => (front ++ r.1, r.2)) = some (text, rest) ↔
      ∃ behind, x = some (behind, rest) ∧ text = front ++ behind := by
  rw [Option.map_eq_some_iff]
  constructor
  · rintro ⟨r, hr, hpair⟩
    cases hpair
    exact ⟨r.1, hr, rfl⟩
  · rintro ⟨behind, hx, rfl⟩
    exact ⟨(behind, rest), hx, rfl⟩

theorem length_lt_of_readEscaped {cs text rest : List Char}
    (h : readEscaped cs = some (text, rest)) : rest.length < cs.length := by
  fun_induction readEscaped cs generalizing text with
  | case1 => cases h
  | case2 c cs ih | case3 cs ih =>
    obtain ⟨behind, hread, -⟩ := map_append_eq_some.mp h
    exact Nat.lt_trans (ih hread) (by simp only [List.length_cons]; omega)
  | case4 cs =>
    cases h
    exact Nat.lt_succ_self _
  | case5 c cs _ _ _ ih =>
    obtain ⟨behind, hread, -⟩ := map_append_eq_some.mp h
    exact Nat.lt_succ_of_lt (ih hread)

/-- Once a quote has lost the one that doubles it, the literal never ends where it should. -/
theorem readEscaped_shifted (value : List Char) {text rest : List Char} :
    readEscaped ('\'' :: (Profile.double '\'' value ++ '\'' :: rest)) ≠ some (text, rest) := by
  induction value generalizing text with
  | nil =>
    intro h
    obtain ⟨behind, hread, -⟩ := map_append_eq_some.mp h
    exact absurd (length_lt_of_readEscaped hread) (Nat.lt_irrefl _)
  | cons c value ih =>
    intro h
    by_cases hc : c = '\''
    · subst hc
      rw [Profile.double_cons_self] at h
      obtain ⟨behind, hread, -⟩ := map_append_eq_some.mp h
      exact ih hread
    · have hhead : (c :: (Profile.double '\'' value ++ '\'' :: rest)).head? ≠ some '\'' :=
        fun hhead => hc (Option.some.inj hhead)
      rw [Profile.double_cons_other hc, List.cons_append, readEscaped_closing hhead] at h
      have hlength := congrArg List.length (Prod.mk.inj (Option.some.inj h)).2
      simp only [List.length_cons, List.length_append] at hlength
      omega

/-- A first piece of the text, where the literal goes on with the rest of the value. -/
theorem readEscaped_piece_iff {cs text rest front read : List Char} {kept : Prop}
    (h : ∀ {behind}, readEscaped cs = some (behind, rest) ↔ kept ∧ behind = read) :
    ((readEscaped cs).map fun r => (front ++ r.1, r.2)) = some (text, rest) ↔
      kept ∧ text = front ++ read := by
  rw [map_append_eq_some]
  constructor
  · rintro ⟨behind, hread, rfl⟩
    obtain ⟨hkept, rfl⟩ := h.mp hread
    exact ⟨hkept, rfl⟩
  · rintro ⟨hkept, rfl⟩
    exact ⟨read, h.mpr ⟨hkept, rfl⟩, rfl⟩

/-- How a value with doubled quotes is read, with the closing quote behind it. -/
theorem readEscaped_double_iff (value : List Char) {text rest : List Char}
    (h : rest.head? ≠ some '\'') :
    readEscaped (Profile.double '\'' value ++ '\'' :: rest) = some (text, rest) ↔
      keepsQuotes value = true ∧ text = unescape value := by
  fun_induction unescape value generalizing text with
  | case1 c value ih =>
    rw [Profile.double_cons_other (by decide)]
    by_cases hc : c = '\''
    · subst hc
      rw [Profile.double_cons_self]
      constructor
      · intro hread
        obtain ⟨behind, hread, -⟩ := map_append_eq_some.mp hread
        exact absurd hread (readEscaped_shifted value)
      · rintro ⟨hkeeps, -⟩
        simp [keepsQuotes] at hkeeps
    · rw [Profile.double_cons_other hc, keepsQuotes_escape hc]
      exact readEscaped_piece_iff ih
  | case2 c value hb ih =>
    by_cases hbackslash : c = '\\'
    · -- a backslash with nothing behind it escapes the closing quote
      subst hbackslash
      cases value with
      | cons d value => exact (hb d value rfl rfl).elim
      | nil =>
        constructor
        · intro hread
          obtain ⟨behind, hread, -⟩ := map_append_eq_some.mp hread
          exact absurd (length_lt_of_readEscaped hread) (Nat.lt_irrefl _)
        · rintro ⟨hkeeps, -⟩
          simp [keepsQuotes] at hkeeps
    · rw [keepsQuotes_other hbackslash]
      by_cases hc : c = '\''
      · subst hc
        rw [Profile.double_cons_self]
        exact readEscaped_piece_iff ih
      · rw [Profile.double_cons_other hc, List.cons_append, readEscaped_other hbackslash hc]
        exact readEscaped_piece_iff ih
  | case3 =>
    rw [Profile.double_nil, List.nil_append, readEscaped_closing h]
    simp [keepsQuotes, eq_comm]

/-! ## Values that are read as they are -/

theorem length_escapeMeaning {c : Char} (h : c ≠ '%' ∧ c ≠ '_') :
    (escapeMeaning c).length = 1 := by
  unfold escapeMeaning
  split <;> simp_all

theorem length_unescape_le (value : List Char) :
    (unescape value).length ≤ value.length := by
  fun_induction unescape value with
  | case1 c value ih =>
    by_cases hc : c = '%' ∨ c = '_'
    · rcases hc with rfl | rfl <;> simpa [escapeMeaning] using ih
    · rw [List.length_append, length_escapeMeaning (not_or.mp hc)]
      simp only [List.length_cons]
      omega
  | case2 c value _ ih => simpa using ih
  | case3 => exact Nat.le_refl _

/-- A value is read as it is if and only if its backslashes stand in front of marks of patterns. -/
theorem unescape_eq_self_iff (value : List Char) :
    keepsQuotes value = true ∧ unescape value = value ↔ keepsBackslashes value = true := by
  fun_induction unescape value with
  | case1 c value ih =>
    by_cases hc : c = '%' ∨ c = '_'
    · rcases hc with rfl | rfl <;> simpa [keepsQuotes, keepsBackslashes, escapeMeaning] using ih
    · constructor
      · rintro ⟨-, hsame⟩
        have hlength := congrArg List.length hsame
        rw [List.length_append, length_escapeMeaning (not_or.mp hc)] at hlength
        have hle := length_unescape_le value
        simp only [List.length_cons] at hlength
        omega
      · intro hkeeps
        simp [keepsBackslashes, not_or.mp hc] at hkeeps
  | case2 c value hb ih =>
    by_cases hbackslash : c = '\\'
    · subst hbackslash
      cases value with
      | nil => simp [keepsQuotes, keepsBackslashes]
      | cons d value => exact (hb d value rfl rfl).elim
    · rw [keepsQuotes_other hbackslash, List.cons_inj_right, ih]
      simp [keepsBackslashes, hbackslash]
  | case3 => simp [keepsQuotes, keepsBackslashes]

/-- The literal of a default value is read to its end, and as the value, in all dialects but MySQL.
There it is read to its end if and only if no backslash takes a quote with it, then as what the
backslashes make of the value, and this is the value if and only if all of them stand in front of
marks of patterns. -/
theorem defaultLiteral_read_iff (p : Profile) {value : String} (hvalue : value ≠ currentTimestamp)
    {rest : List Char} (hrest : rest.head? ≠ some '\'') :
    (∀ text : List Char,
      p.readLiteral ((p.defaultLiteral value).toList ++ rest) = some (text, rest) ↔
        if p.dialect = .mySql then
          keepsQuotes value.toList = true ∧ text = unescape value.toList
        else text = value.toList) ∧
    (p.readLiteral ((p.defaultLiteral value).toList ++ rest) = some (value.toList, rest) ↔
      (p.dialect = .mySql → keepsBackslashes value.toList = true)) := by
  have htext : (p.defaultLiteral value).toList ++ rest =
      '\'' :: (Profile.double '\'' value.toList ++ '\'' :: rest) := by
    unfold Profile.defaultLiteral
    rw [if_neg hvalue, String.toList_ofList]
    simp
  have hread (text : List Char) :
      p.readLiteral ((p.defaultLiteral value).toList ++ rest) = some (text, rest) ↔
        if p.dialect = .mySql then
          keepsQuotes value.toList = true ∧ text = unescape value.toList
        else text = value.toList := by
    rw [htext, Profile.readLiteral]
    split
    · exact readEscaped_double_iff value.toList hrest
    · rw [readQuoted_double value.toList hrest]
      simp [eq_comm]
  refine ⟨hread, ?_⟩
  rw [hread]
  by_cases hmySql : p.dialect = .mySql
  · rw [if_pos hmySql, eq_comm (a := value.toList), unescape_eq_self_iff]
    simp [hmySql]
  · simp [hmySql]

/-- A backslash at the end does no harm in Oracle, nor does one in front of a percent sign in
MySQL. -/
theorem defaultLiteral_read_iff_shares :
    let path := "it's in D:\\"
    let share := "it's 5\\%"
    path ≠ currentTimestamp ∧ share ≠ currentTimestamp ∧ [','].head? ≠ some '\'' ∧
    Profile.oracle.readLiteral ((Profile.oracle.defaultLiteral path).toList ++ [',']) =
      some (path.toList, [',']) ∧
    Profile.mySql.readLiteral ((Profile.mySql.defaultLiteral share).toList ++ [',']) =
      some (share.toList, [',']) := by
  intro path share
  have hpath : path ≠ currentTimestamp := by decide
  have hshare : share ≠ currentTimestamp := by decide
  have hcomma : [','].head? ≠ some '\'' := by decide
  refine ⟨hpath, hshare, hcomma, ?_, ?_⟩
  · exact (defaultLiteral_read_iff .oracle hpath hcomma).2.mpr nofun
  · exact (defaultLiteral_read_iff .mySql hshare hcomma).2.mpr fun _ => by decide

/-- For MySQL a value can keep its literal from ending, or end it early and go on with statements of
its own. -/
theorem backslash_escapes_closing_quote :
    let p := Profile.mySql
    p ∈ Profile.all ∧ "\\" ≠ currentTimestamp ∧
    p.readLiteral (p.defaultLiteral "\\").toList = none ∧
    p.readLiteral (p.defaultLiteral "\\'; DROP TABLE x; -- ").toList =
      some (['\''], "; DROP TABLE x; -- '".toList) := by
  decide

end SchemaScript
