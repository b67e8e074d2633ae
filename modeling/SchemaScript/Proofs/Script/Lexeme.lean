import SchemaScript.Dialect.Profile

/-!
# SchemaScript.Proofs.Script.Lexeme

A reader of scripts that knows as much of the language as is needed to tell where a statement ends:
comments, quoted identifiers and literals. Only the semicolons outside of these end a statement.

* `lex`: two dashes open a comment, which goes on to the next line feed; a quotation ends at a
  closing quote that is not doubled.
* `flatMap_chars_of_lex`: the lexemes have the text that they were read from, so that nothing of a
  script is lost.
* `readScript`: the statements of a script, without comments and without the white space in front
  of them, and what is left behind the last one.
-/

namespace SchemaScript

/-- The two uses of quotes. -/
inductive Quotation where
  | identifier
  | literal
deriving DecidableEq, Repr

namespace Quotation

def opening (p : Profile) : Quotation → Char
  | .identifier => p.openQuote
  | .literal => '\''

def closing (p : Profile) : Quotation → Char
  | .identifier => p.closeQuote
  | .literal => '\''

end Quotation

inductive Lexeme where
  /-- The text behind the two dashes. -/
  | comment (text : List Char)
  /-- The text between the quotes, with doubled closing quotes read as one. -/
  | quoted (kind : Quotation) (text : List Char)
  | char (c : Char)
deriving DecidableEq, Repr

namespace Lexeme

def chars (p : Profile) : Lexeme → List Char
  | .comment text => '-' :: '-' :: text
  | .quoted kind text =>
    kind.opening p :: Profile.double (kind.closing p) text ++ [kind.closing p]
  | .char c => [c]

def isBlank : Lexeme → Bool
  | .char c => Text.isBlank c
  | _ => false

def isComment : Lexeme → Bool
  | .comment _ => true
  | _ => false

def isIdentifier : Lexeme → Bool
  | .quoted .identifier _ => true
  | _ => false

end Lexeme

/-- What a reader stands in, with what it has read of it, the last character first. -/
inductive LexState where
  | outside
  | comment (read : List Char)
  | quoted (kind : Quotation) (read : List Char)

/-- The lexemes of the text; none if a quotation is not closed. -/
def lex (p : Profile) : LexState → List Char → Option (List Lexeme)
  | .outside, [] => some []
  | .outside, '-' :: '-' :: rest => lex p (.comment []) rest
  | .outside, c :: rest =>
    if c = p.openQuote then lex p (.quoted .identifier []) rest
    else if c = '\'' then lex p (.quoted .literal []) rest
    else (lex p .outside rest).map (.char c :: ·)
  | .comment read, [] => some [.comment read.reverse]
  | .comment read, c :: rest =>
    if c = '\n' then (lex p .outside rest).map fun ls => .comment read.reverse :: .char c :: ls
    else lex p (.comment (c :: read)) rest
  | .quoted _ _, [] => none
  | .quoted kind read, c :: rest =>
    if c = kind.closing p then
      match rest with
      | [] => some [.quoted kind read.reverse]
      | d :: rest' =>
        if d = kind.closing p then lex p (.quoted kind (d :: read)) rest'
        else (lex p .outside (d :: rest')).map (.quoted kind read.reverse :: ·)
    else lex p (.quoted kind (c :: read)) rest

/-! ## Nothing is lost -/

namespace LexState

/-- The text that has been read of what the reader stands in. -/
def chars (p : Profile) : LexState → List Char
  | .outside => []
  | .comment read => '-' :: '-' :: read.reverse
  | .quoted kind read => kind.opening p :: Profile.double (kind.closing p) read.reverse

end LexState

theorem lex_quoted_other {p : Profile} {kind : Quotation} {c : Char} (hc : c ≠ kind.closing p)
    (read rest : List Char) :
    lex p (.quoted kind read) (c :: rest) = lex p (.quoted kind (c :: read)) rest := by
  rw [lex.eq_def]
  simp only [if_neg hc]

/-- The lexemes have the text that they were read from. -/
theorem flatMap_chars_of_lex {p : Profile} {m : LexState} {cs : List Char} {ls : List Lexeme}
    (h : lex p m cs = some ls) : ls.flatMap (·.chars p) = m.chars p ++ cs := by
  induction m, cs using lex.induct p generalizing ls with
  | case1 => simp_all [lex, LexState.chars]
  | case2 rest ih =>
    rw [lex] at h
    simpa [LexState.chars] using ih h
  | case3 rest hd ih =>
    rw [lex, if_pos rfl] at h
    · simpa [LexState.chars, Profile.double, Quotation.opening] using ih h
    · exact hd
  | case4 rest hd ho ih =>
    rw [lex, if_neg ho, if_pos rfl] at h
    · simpa [LexState.chars, Profile.double, Quotation.opening] using ih h
    · exact hd
  | case5 c rest hd ho hl ih =>
    rw [lex, if_neg ho, if_neg hl, Option.map_eq_some_iff] at h
    · obtain ⟨ls', h', rfl⟩ := h
      simpa [LexState.chars, Lexeme.chars] using ih h'
    · exact hd
  | case6 read =>
    simp only [lex, Option.some.injEq] at h
    subst h
    simp [LexState.chars, Lexeme.chars]
  | case7 read rest ih =>
    simp only [lex, if_true, Option.map_eq_some_iff] at h
    obtain ⟨ls', h', rfl⟩ := h
    simpa [LexState.chars, Lexeme.chars] using ih h'
  | case8 read c rest hc ih =>
    simp only [lex, if_neg hc] at h
    simpa [LexState.chars] using ih h
  | case9 kind read => simp [lex] at h
  | case10 kind read =>
    simp only [lex, if_true, Option.some.injEq] at h
    subst h
    simp [LexState.chars, Lexeme.chars]
  | case11 kind read rest ih =>
    simp only [lex, if_true] at h
    simpa [LexState.chars, Profile.double_append, Profile.double_cons_self, Profile.double_nil]
      using ih h
  | case12 kind read d rest hd ih =>
    simp only [lex, if_true, if_neg hd, Option.map_eq_some_iff] at h
    obtain ⟨ls', h', rfl⟩ := h
    simpa [LexState.chars, Lexeme.chars] using ih h'
  | case13 kind read c rest hc ih =>
    rw [lex_quoted_other hc] at h
    simpa [LexState.chars, Profile.double_append, Profile.double_cons_other hc, Profile.double_nil]
      using ih h

/-! ## Statements -/

/-- The pieces that end at a semicolon, which they do without, and what follows the last one. -/
def splitStatements : List Lexeme → List (List Lexeme) × List Lexeme
  | [] => ([], [])
  | .char ';' :: ls => ([] :: (splitStatements ls).1, (splitStatements ls).2)
  | l :: ls =>
    match splitStatements ls with
    | ([], last) => ([], l :: last)
    | (piece :: pieces, last) => ((l :: piece) :: pieces, last)

/-- The lexemes without comments and without the white space in front. -/
def bare (ls : List Lexeme) : List Lexeme :=
  (ls.filter (!·.isComment)).dropWhile (·.isBlank)

/-- The statements among the lexemes, and what follows the last one. -/
def readStatements (ls : List Lexeme) : List (List Lexeme) × List Lexeme :=
  ((splitStatements ls).1.map bare, (splitStatements ls).2)

def readScript (p : Profile) (script : String) : Option (List (List Lexeme) × List Lexeme) :=
  (lex p .outside script.toList).map readStatements

/-- The text of a statement with the semicolon that ends it. -/
def statementText (p : Profile) (statement : List Lexeme) : String :=
  String.ofList (statement.flatMap (·.chars p) ++ [';'])

/-- The first quoted identifier of a statement. -/
def firstIdentifier? (statement : List Lexeme) : Option (List Char) :=
  match statement.find? (·.isIdentifier) with
  | some (.quoted _ name) => some name
  | _ => none

theorem splitStatements_semicolon (ls : List Lexeme) :
    splitStatements (.char ';' :: ls) = ([] :: (splitStatements ls).1, (splitStatements ls).2) := by
  rw [splitStatements]

theorem splitStatements_other {l : Lexeme} (hl : l ≠ .char ';') (ls : List Lexeme) :
    splitStatements (l :: ls) =
      match splitStatements ls with
      | ([], last) => ([], l :: last)
      | (piece :: pieces, last) => ((l :: piece) :: pieces, last) := by
  rw [splitStatements]
  exact hl

theorem splitStatements_concat {ls : List Lexeme} (h : ∀ l ∈ ls, l ≠ .char ';') :
    splitStatements (ls ++ [.char ';']) = ([ls], []) := by
  induction ls with
  | nil => rfl
  | cons l ls ih =>
    rw [List.cons_append, splitStatements_other (h l (by simp)), ih fun l hl => h l (by simp [hl])]

theorem bare_eq_self {ls : List Lexeme} (h : ∀ l ∈ ls, l.isComment = false)
    (hstart : ∀ l ∈ ls.head?, l.isBlank = false) : bare ls = ls := by
  have hfilter : ls.filter (!·.isComment) = ls :=
    List.filter_eq_self.mpr fun l hl => by simp [h l hl]
  rw [bare, hfilter]
  cases ls with
  | nil => rfl
  | cons l ls => rw [List.dropWhile_cons_of_neg (by simp [hstart l rfl])]

/-- Statements that are complete do not mix with those behind them. -/
theorem splitStatements_append {ls : List Lexeme} (h : (splitStatements ls).2 = [])
    (ms : List Lexeme) :
    splitStatements (ls ++ ms) =
      ((splitStatements ls).1 ++ (splitStatements ms).1, (splitStatements ms).2) := by
  induction ls with
  | nil => rfl
  | cons l ls ih =>
    by_cases hl : l = .char ';'
    · subst hl
      rw [splitStatements_semicolon] at h
      rw [List.cons_append, splitStatements_semicolon, splitStatements_semicolon, ih h]
      rfl
    · rw [splitStatements_other hl] at h
      rw [List.cons_append, splitStatements_other hl, splitStatements_other hl]
      cases hs : splitStatements ls with
      | mk pieces last =>
        rw [hs] at h ih
        cases pieces with
        | nil => cases h
        | cons piece pieces => rw [ih h]; rfl

theorem readStatements_append {ls ms : List Lexeme} (h : (readStatements ls).2 = []) :
    readStatements (ls ++ ms) =
      ((readStatements ls).1 ++ (readStatements ms).1, (readStatements ms).2) := by
  simp only [readStatements] at h ⊢
  rw [splitStatements_append h, List.map_append]

/-- Comments and white space in front of a statement are not part of it. -/
theorem readStatements_cons {l : Lexeme} (hl : l.isComment = true ∨ l.isBlank = true)
    {ls : List Lexeme} (hls : (readStatements ls).1 ≠ []) :
    readStatements (l :: ls) = readStatements ls := by
  have hne : l ≠ .char ';' := by
    rintro rfl
    rcases hl with h | h
    · cases h
    · exact absurd h (by decide)
  have hbare (piece : List Lexeme) : bare (l :: piece) = bare piece := by
    rcases hl with h | h
    · simp [bare, h]
    · cases hc : l.isComment <;> simp [bare, h, hc]
  simp only [readStatements] at hls ⊢
  rw [splitStatements_other hne]
  cases hs : splitStatements ls with
  | mk pieces last =>
    rw [hs] at hls
    cases pieces with
    | nil => exact absurd rfl hls
    | cons piece pieces => simp [hbare]

end SchemaScript
