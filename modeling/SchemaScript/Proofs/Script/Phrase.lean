import SchemaScript.Proofs.Script.Lexeme
import SchemaScript.Proofs.Script.Segment
import SchemaScript.Proofs.Types.Native
import SchemaScript.Script.Statement

/-!
# SchemaScript.Proofs.Script.Phrase

How the parts of a script are read wherever they stand.

`ReadsAs p cs ls`: in front of any text that does not start with a quote, `cs` is read as `ls`.
Texts without quotes and quoted texts have this property (`readsAs_ordinary`, `readsAs_quoted`), and
it passes to what is put together from them (`ReadsAs.append`).

`IsPhrase p cs`: moreover `cs` holds no comment and no semicolon that ends a statement. Statements
are phrases with a semicolon behind them.
-/

namespace SchemaScript

/-! ## Reading on -/

/-- The characters that scripts hold outside of quotes and comments, semicolons apart. -/
def isOrdinary (c : Char) : Bool :=
  c.isAlphanum || c ∈ ['_', ' ', ',', '(', ')', '=', '\n']

/-- A text of ordinary characters only. -/
def IsOrdinary (cs : List Char) : Prop :=
  ∀ c ∈ cs, isOrdinary c = true

instance (cs : List Char) : Decidable (IsOrdinary cs) :=
  decidable_of_iff (cs.all isOrdinary = true) List.all_eq_true

/-- The quotes of a dialect are used for nothing else, and its fixed texts need none. -/
structure Profile.IsReadable (p : Profile) : Prop where
  openQuote_other : isOrdinary p.openQuote = false ∧ p.openQuote ∉ ['\'', '-', ';']
  closeQuote_other : isOrdinary p.closeQuote = false ∧ p.closeQuote ∉ ['\'', '-', ';']
  numbering_ordinary : ∀ keyword, p.numbering = .inline keyword → IsOrdinary keyword.toList
  nowFunction_ordinary : IsOrdinary p.nowFunction.toList
  tableSuffix_ordinary : IsOrdinary p.tableSuffix.toList
  headerStatements_ordinary : ∀ header ∈ p.headerStatements, ∃ body,
    header = body ++ ";" ∧ IsOrdinary body.toList ∧
      ∃ c rest, body.toList = c :: rest ∧ Text.isBlank c = false

theorem isReadable_of_mem {p : Profile} (h : p ∈ Profile.all) : p.IsReadable := by
  simp only [Profile.all, List.mem_cons, List.not_mem_nil, or_false] at h
  rcases h with rfl | rfl | rfl | rfl | rfl
  · exact ⟨by decide, by decide, by simp [Profile.postgreSql], by decide, by decide,
      by simp [Profile.postgreSql]⟩
  · exact ⟨by decide, by decide, by simp [Profile.mySql]; decide, by decide, by decide,
      by simp [Profile.mySql]⟩
  · exact ⟨by decide, by decide, by simp [Profile.sqlite]; decide, by decide, by decide,
      by simpa [Profile.sqlite] using
        ⟨"PRAGMA foreign_keys = ON", rfl, by decide, 'P', ⟨_, rfl⟩, by decide⟩⟩
  · exact ⟨by decide, by decide, by simp [Profile.oracle], by decide, by decide,
      by simp [Profile.oracle]⟩
  · exact ⟨by decide, by decide, by simp [Profile.sqlServer]; decide, by decide, by decide,
      by simp [Profile.sqlServer]⟩

/-- No quotation goes on with the text. -/
def Apart (p : Profile) (rest : List Char) : Prop :=
  ∀ kind : Quotation, rest.head? ≠ some (kind.closing p)

def ReadsAs (p : Profile) (cs : List Char) (ls : List Lexeme) : Prop :=
  ∀ rest, Apart p rest → lex p .outside (cs ++ rest) = (lex p .outside rest).map (ls ++ ·)

section Parts

variable {p : Profile}

theorem apart_nil : Apart p [] := by
  intro kind h
  cases h

theorem Apart.append {cs rest : List Char} (hc : Apart p cs) (hr : Apart p rest) :
    Apart p (cs ++ rest) := by
  cases cs with
  | nil => exact hr
  | cons c cs => exact hc

theorem apart_of_ordinary (hp : p.IsReadable) {c : Char} (hc : isOrdinary c = true)
    (rest : List Char) : Apart p (c :: rest) := by
  intro kind h
  have hcq : c = kind.closing p := by simpa using h
  cases kind with
  | identifier => rw [hcq, Quotation.closing, hp.closeQuote_other.1] at hc; cases hc
  | literal => rw [hcq, Quotation.closing] at hc; exact absurd hc (by decide)

theorem apart_semicolon (hp : p.IsReadable) (rest : List Char) : Apart p (';' :: rest) := by
  intro kind h
  have hq : ';' = kind.closing p := by simpa using h
  cases kind with
  | identifier => rw [Quotation.closing] at hq; exact hp.closeQuote_other.2 (by simp [← hq])
  | literal => rw [Quotation.closing] at hq; exact absurd hq (by decide)

theorem readsAs_nil : ReadsAs p [] [] := by
  intro rest _
  simp

theorem ReadsAs.append {cs ds : List Char} {ls ms : List Lexeme} (hc : ReadsAs p cs ls)
    (hd : ReadsAs p ds ms) (ha : Apart p ds) : ReadsAs p (cs ++ ds) (ls ++ ms) := by
  intro rest hr
  rw [List.append_assoc, hc _ (ha.append hr), hd rest hr, Option.map_map]
  congr 1
  funext ks
  simp

/-- The lexemes of a text that stands alone. -/
theorem ReadsAs.lex_eq {cs : List Char} {ls : List Lexeme} (h : ReadsAs p cs ls) :
    lex p .outside cs = some ls := by
  simpa [lex] using h [] apart_nil

theorem ReadsAs.flatMap_chars {cs : List Char} {ls : List Lexeme} (h : ReadsAs p cs ls) :
    ls.flatMap (·.chars p) = cs :=
  flatMap_chars_of_lex h.lex_eq

theorem lex_char {c : Char} (h1 : c ≠ '-') (h2 : c ≠ p.openQuote) (h3 : c ≠ '\'')
    (rest : List Char) : lex p .outside (c :: rest) = (lex p .outside rest).map (.char c :: ·) := by
  rw [lex, if_neg h2, if_neg h3]
  intro _ h
  exact absurd h h1

theorem ne_of_ordinary {c d : Char} (hc : isOrdinary c = true) (hd : isOrdinary d = false) :
    c ≠ d := by
  rintro rfl
  rw [hc] at hd
  cases hd

/-- Text without quotes is read character by character, whatever comes after it. -/
theorem lex_ordinary (hp : p.IsReadable) {cs : List Char} (hc : IsOrdinary cs) (rest : List Char) :
    lex p .outside (cs ++ rest) = (lex p .outside rest).map (cs.map .char ++ ·) := by
  induction cs with
  | nil => simp
  | cons c cs ih =>
    have h := hc c (by simp)
    rw [List.cons_append, lex_char (ne_of_ordinary h (by decide))
      (ne_of_ordinary h hp.openQuote_other.1) (ne_of_ordinary h (by decide)),
      ih (fun d hd => hc d (by simp [hd])), Option.map_map]
    rfl

theorem readsAs_ordinary (hp : p.IsReadable) {cs : List Char} (hc : IsOrdinary cs) :
    ReadsAs p cs (cs.map .char) :=
  fun rest _ => lex_ordinary hp hc rest

/-- Text without quotes may stand in front of a quotation. -/
theorem ReadsAs.ordinary_append (hp : p.IsReadable) {cs ds : List Char} {ms : List Lexeme}
    (hc : IsOrdinary cs) (hd : ReadsAs p ds ms) :
    ReadsAs p (cs ++ ds) (cs.map .char ++ ms) := by
  intro rest hr
  rw [List.append_assoc, lex_ordinary hp hc, hd rest hr, Option.map_map]
  congr 1
  funext ks
  simp

theorem readsAs_semicolon (hp : p.IsReadable) : ReadsAs p [';'] [.char ';'] := by
  intro rest _
  have ho : ';' ≠ p.openQuote := fun h => hp.openQuote_other.2 (by simp [← h])
  rw [List.singleton_append, lex_char (by decide) ho (by decide)]
  rfl

/-- Inside of a quotation, up to its closing quote. -/
theorem lex_quoted (kind : Quotation) (text : List Char) :
    ∀ (read rest : List Char), Apart p rest →
      lex p (.quoted kind read) (Profile.double (kind.closing p) text ++ kind.closing p :: rest) =
        (lex p .outside rest).map (.quoted kind (read.reverse ++ text) :: ·) := by
  induction text with
  | nil =>
    intro read rest hr
    cases rest with
    | nil => simp [Profile.double, lex]
    | cons d rest =>
      have hd : d ≠ kind.closing p := fun h => hr kind (by rw [h]; rfl)
      simp [Profile.double, lex, hd]
  | cons c text ih =>
    intro read rest hr
    have hih := ih (c :: read) rest hr
    by_cases hc : c = kind.closing p
    · subst hc
      simpa [Profile.double, lex] using hih
    · have hd : Profile.double (kind.closing p) (c :: text) =
          c :: Profile.double (kind.closing p) text := by
        simp [Profile.double, hc]
      rw [hd, List.cons_append, lex_quoted_other hc]
      simpa using hih

/-- A quotation is read as a whole and gives back the text that was quoted. -/
theorem readsAs_quoted (hp : p.IsReadable) (kind : Quotation) (text : List Char) :
    ReadsAs p (Lexeme.chars p (.quoted kind text)) [.quoted kind text] := by
  intro rest hr
  have hq := lex_quoted kind text [] rest hr
  have hdash : ∀ q, q ∉ ['\'', '-', ';'] → q ≠ '-' := by
    rintro q hq rfl
    simp at hq
  cases kind with
  | identifier =>
    simp only [Lexeme.chars, Quotation.opening, List.cons_append, List.append_assoc]
    rw [lex, if_pos rfl]
    · simpa using hq
    · intro _ h
      exact absurd h (hdash _ hp.openQuote_other.2)
  | literal =>
    have ho : '\'' ≠ p.openQuote := fun h => hp.openQuote_other.2 (by simp [← h])
    simp only [Lexeme.chars, Quotation.opening, List.cons_append, List.append_assoc]
    rw [lex, if_neg ho, if_pos rfl]
    · simpa using hq
    · intro _ h
      cases h

theorem lex_comment (text : List Char) (ht : '\n' ∉ text) :
    ∀ (read rest : List Char), lex p (.comment read) (text ++ '\n' :: rest) =
      (lex p .outside rest).map fun ls => .comment (read.reverse ++ text) :: .char '\n' :: ls := by
  induction text with
  | nil => intro read rest; simp [lex]
  | cons c text ih =>
    intro read rest
    have hc : c ≠ '\n' := fun h => ht (by simp [h])
    simpa [lex, hc] using ih (fun h => ht (by simp [h])) (c :: read) rest

/-! ## Phrases -/

/-- Neither a comment nor the end of a statement. -/
def Lexeme.IsInner (l : Lexeme) : Prop :=
  l.isComment = false ∧ l ≠ .char ';'

/-- A text without comments and without semicolons outside of quotes. -/
def IsPhrase (p : Profile) (cs : List Char) : Prop :=
  ∃ ls, ReadsAs p cs ls ∧ ∀ l ∈ ls, l.IsInner

theorem isInner_of_ordinary {cs : List Char} (hc : IsOrdinary cs) :
    ∀ l ∈ cs.map Lexeme.char, l.IsInner := by
  intro l hl
  obtain ⟨c, hmem, rfl⟩ := List.mem_map.mp hl
  exact ⟨rfl, fun h => ne_of_ordinary (hc c hmem) (by decide) (Lexeme.char.inj h)⟩

theorem isInner_append {ls ms : List Lexeme} (hl : ∀ l ∈ ls, l.IsInner)
    (hm : ∀ l ∈ ms, l.IsInner) : ∀ l ∈ ls ++ ms, l.IsInner := by
  intro l h
  rcases List.mem_append.mp h with h | h
  · exact hl l h
  · exact hm l h

theorem isPhrase_ordinary (hp : p.IsReadable) {cs : List Char}
    (hc : IsOrdinary cs) : IsPhrase p cs :=
  ⟨_, readsAs_ordinary hp hc, isInner_of_ordinary hc⟩

theorem isPhrase_quoted (hp : p.IsReadable) (kind : Quotation) (text : List Char) :
    IsPhrase p (Lexeme.chars p (.quoted kind text)) := by
  refine ⟨_, readsAs_quoted hp kind text, fun l hl => ?_⟩
  rw [List.mem_singleton] at hl
  subst hl
  exact ⟨rfl, nofun⟩

theorem IsPhrase.append {cs ds : List Char} (hc : IsPhrase p cs) (hd : IsPhrase p ds)
    (ha : Apart p ds) : IsPhrase p (cs ++ ds) := by
  obtain ⟨ls, hls, hc⟩ := hc
  obtain ⟨ms, hms, hd⟩ := hd
  exact ⟨ls ++ ms, hls.append hms ha, isInner_append hc hd⟩

theorem IsPhrase.ordinary_append (hp : p.IsReadable) {cs ds : List Char}
    (hc : IsOrdinary cs) (hd : IsPhrase p ds) : IsPhrase p (cs ++ ds) := by
  obtain ⟨ms, hms, hd⟩ := hd
  exact ⟨cs.map .char ++ ms, hms.ordinary_append hp hc, isInner_append (isInner_of_ordinary hc) hd⟩

/-- Two phrases with ordinary text between them. -/
theorem IsPhrase.join (hp : p.IsReadable) {cs sep ds : List Char} (hc : IsPhrase p cs)
    (hs : IsOrdinary sep) (hne : sep ≠ []) (hd : IsPhrase p ds) :
    IsPhrase p (cs ++ (sep ++ ds)) := by
  refine hc.append (.ordinary_append hp hs hd) ?_
  obtain ⟨c, sep, rfl⟩ := List.exists_cons_of_ne_nil hne
  exact apart_of_ordinary hp (hs c (by simp)) _

theorem IsPhrase.append_ordinary (hp : p.IsReadable) {cs ds : List Char} (hc : IsPhrase p cs)
    (hd : IsOrdinary ds) : IsPhrase p (cs ++ ds) := by
  cases ds with
  | nil => simpa using hc
  | cons d ds => exact hc.append (isPhrase_ordinary hp hd) (apart_of_ordinary hp (hd d (by simp)) _)

theorem isPhrase_intercalate (hp : p.IsReadable) {sep : List Char}
    (hs : IsOrdinary sep) (hne : sep ≠ []) {css : List (List Char)}
    (h : ∀ cs ∈ css, IsPhrase p cs) : IsPhrase p (sep.intercalate css) := by
  induction css with
  | nil => exact isPhrase_ordinary hp (by simp [IsOrdinary])
  | cons cs css ih =>
    cases css with
    | nil => simpa using h cs (by simp)
    | cons ds css =>
      rw [List.intercalate_cons_cons, List.append_assoc]
      exact (h cs (by simp)).join hp hs hne (ih fun ds hd => h ds (by simp [hd]))

/-! ## The phrases of statements -/

theorem toList_quote (name : String) :
    (p.quote name).toList = Lexeme.chars p (.quoted .identifier (p.fold name).toList) := by
  rw [Profile.quote, String.toList_ofList]
  rfl

theorem isPhrase_quote (hp : p.IsReadable) (name : String) : IsPhrase p (p.quote name).toList := by
  rw [toList_quote]
  exact isPhrase_quoted hp _ _

theorem isPhrase_defaultLiteral (hp : p.IsReadable) (value : String) :
    IsPhrase p (p.defaultLiteral value).toList := by
  unfold Profile.defaultLiteral
  split
  · exact isPhrase_ordinary hp hp.nowFunction_ordinary
  · rw [String.toList_ofList]
    exact isPhrase_quoted hp .literal value.toList

theorem isOrdinary_of_isPlainType {token : String} (h : IsPlainType token) :
    IsOrdinary token.toList := by
  intro c hc
  have ht := h c hc
  simp only [isTypeChar, Bool.or_eq_true, decide_eq_true_eq] at ht
  simp only [isOrdinary, Bool.or_eq_true, decide_eq_true_eq]
  rcases ht with ht | ht
  · exact .inl ht
  · exact .inr (by simp only [List.mem_cons] at ht ⊢; grind)

/-- A column whose type token is plain, if it has one. -/
def Column.HasPlainType (c : Column) : Prop :=
  ∀ token ∈ c.dataType, IsPlainType token

instance (c : Column) : Decidable c.HasPlainType :=
  inferInstanceAs (Decidable (∀ token ∈ c.dataType, IsPlainType token))

theorem isPhrase_segment (hp : p.IsReadable) {c : Column} (hc : c.HasPlainType) {soleKey : Bool}
    {segment : Segment} (h : segment ∈ p.segments soleKey c) :
    IsPhrase p (segment.text p).toList := by
  have hfixed {text : String} (ht : IsOrdinary text.toList) : IsPhrase p text.toList :=
    isPhrase_ordinary hp ht
  cases segment with
  | identifier name => exact isPhrase_quote hp name
  | nativeType text =>
    obtain ⟨token, htoken, rfl⟩ := Profile.nativeType_mem_segments.mp h
    exact hfixed (isOrdinary_of_isPlainType (Dialect.isPlainType_convertType _ (hc token htoken)))
  | numbering keyword =>
    exact hfixed (hp.numbering_ordinary _ (Profile.numbering_mem_segments.mp h).2.symm)
  | primaryKey => exact hfixed (by decide : IsOrdinary "PRIMARY KEY".toList)
  | unique => exact hfixed (by decide : IsOrdinary "UNIQUE".toList)
  | notNull => exact hfixed (by decide : IsOrdinary "NOT NULL".toList)
  | null => exact hfixed (by decide : IsOrdinary "NULL".toList)
  | default value =>
    rw [Segment.text, String.toList_append]
    exact .ordinary_append hp (by decide) (isPhrase_defaultLiteral hp value)

theorem isPhrase_columnLine (hp : p.IsReadable) {t : Table} {c : Column} (hc : c.HasPlainType) :
    IsPhrase p (p.lineText (p.tableSegments t c)).toList := by
  rw [Profile.lineText, String.toList_intercalate]
  refine isPhrase_intercalate hp (by decide) (by decide) fun cs hcs => ?_
  obtain ⟨text, htext, rfl⟩ := List.mem_map.mp hcs
  obtain ⟨segment, hsegment, rfl⟩ := List.mem_map.mp (List.mem_filter.mp htext).1
  exact isPhrase_segment hp hc hsegment

theorem isPhrase_names (hp : p.IsReadable) (columns : List String) :
    IsPhrase p (String.intercalate ", " (columns.map p.quote)).toList := by
  rw [String.toList_intercalate]
  refine isPhrase_intercalate hp (by decide) (by decide) fun cs hcs => ?_
  obtain ⟨text, htext, rfl⟩ := List.mem_map.mp hcs
  obtain ⟨column, -, rfl⟩ := List.mem_map.mp htext
  exact isPhrase_quote hp column

theorem isPhrase_clause (hp : p.IsReadable) (c : Constraint) :
    IsPhrase p (c.clause p).toList := by
  cases c with
  | primaryKey table columns =>
    simp only [Constraint.clause_primaryKey, String.toList_append, List.append_assoc]
    exact .ordinary_append hp (by decide) (.append_ordinary hp (isPhrase_names hp _) (by decide))
  | unique table column =>
    simp only [Constraint.clause_unique, String.toList_append, List.append_assoc]
    exact .ordinary_append hp (by decide) (.append_ordinary hp (isPhrase_quote hp _) (by decide))
  | foreignKey table column target =>
    simp only [Constraint.clause_foreignKey, String.toList_append, List.append_assoc]
    refine .ordinary_append hp (by decide) ?_
    refine .join hp (isPhrase_quote hp _) (by decide) (by decide) ?_
    refine .join hp (isPhrase_quote hp _) (by decide) (by decide) ?_
    exact .append_ordinary hp (isPhrase_quote hp _) (by decide)

/-- What stands between the brackets of a table. -/
theorem isPhrase_tableBody (hp : p.IsReadable) (s : Scope) {t : Table}
    (ht : ∀ c ∈ t.columns, c.HasPlainType) :
    ∀ line ∈ Statement.tableBody p s t, IsPhrase p line.toList := by
  intro line hline
  simp only [Statement.tableBody, Profile.columnLines, List.mem_append, List.mem_map] at hline
  rcases hline with (⟨c, hc, rfl⟩ | ⟨c, -, rfl⟩) | ⟨c, -, rfl⟩
  · exact isPhrase_columnLine hp (ht c hc)
  · exact isPhrase_clause hp c
  · exact isPhrase_clause hp c

end Parts

end SchemaScript
