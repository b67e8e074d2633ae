import SchemaScript.Collection.Basic
import SchemaScript.Proofs.Text.LowerCase
import SchemaScript.Proofs.Types.Normalization

/-!
# SchemaScript.Proofs.Types.Classification

Storage types of tokens with parameters. Words are looked for in the whole token, so that the
parameters count as much as the keyword does. A token is of the first class that has a word in it
(`rank_le_iff`), and its words are those of the keyword together with those of the parameters
(`mentions_parameterized`); so it is of the class of the one or of that of the other, whichever is
tried first (`classify_parameterized`). The labels of an enumeration can make an integer of a string
(`labels_change_storage`).
-/

namespace SchemaScript
namespace StorageType

/-- The place of a class in the order in which classes are tried. Strings come last: they have no
words. -/
def rank (s : StorageType) : Nat :=
  (keywords.map Prod.fst).idxOf s

/-- The one of two classes that is tried first. -/
def first (s t : StorageType) : StorageType :=
  if s.rank ≤ t.rank then s else t

/-- One of the words occurs in the small form of the text. -/
def Mentions (text : String) (words : List String) : Prop :=
  ∃ word ∈ words, word.toList <:+: Text.lowerChars text.toList

theorem any_occursIn_iff {text : String} {words : List String} :
    (words.any fun word => occursIn word.toList (Text.lowerChars text.toList)) = true ↔
      Mentions text words := by
  simp only [List.any_eq_true, occursIn_iff, Mentions]

instance (text : String) (words : List String) : Decidable (Mentions text words) :=
  decidable_of_iff _ any_occursIn_iff

/-! ## The order of classes -/

theorem eq_of_rank_eq {s t : StorageType} (h : s.rank = t.rank) : s = t := by
  revert h
  cases s <;> cases t <;> decide

theorem rank_le_string (s : StorageType) : s.rank ≤ rank .string := by
  cases s <;> decide

/-- The entries are in the order of their classes. -/
theorem pairwise_keywords : keywords.Pairwise fun e e' => e.1.rank ≤ e'.1.rank := by
  decide

theorem rank_first_le_iff {r : Nat} {s t : StorageType} :
    r ≤ (first s t).rank ↔ r ≤ s.rank ∧ r ≤ t.rank := by
  rw [first]
  split <;> omega

theorem first_eq_left_iff {s t : StorageType} : first s t = s ↔ s.rank ≤ t.rank := by
  by_cases hle : s.rank ≤ t.rank
  · rw [first, if_pos hle]
    exact iff_of_true rfl hle
  · rw [first, if_neg hle]
    refine iff_of_false ?_ hle
    rintro rfl
    exact hle le_rfl

theorem first_string (t : StorageType) : first .string t = t := by
  cases t <;> decide

/-! ## The first class with a word in the text -/

/-- Up to which place there is no class with a word in the text. -/
theorem rank_le_iff {s : StorageType} {text : String} :
    s.rank ≤ (ofToken text).rank ↔ ∀ e ∈ keywords, Mentions text e.2 → s.rank ≤ e.1.rank := by
  rw [ofToken]
  split
  · rename_i storage words hfind
    obtain ⟨hmentions, before, after, hkeywords, hbefore⟩ :=
      List.find?_eq_some_iff_append.mp hfind
    rw [any_occursIn_iff] at hmentions
    have horder := pairwise_keywords
    rw [hkeywords, List.pairwise_append, List.pairwise_cons] at horder
    constructor
    · intro hle e he hwords
      rw [hkeywords, List.mem_append, List.mem_cons] at he
      -- entries in front of the one that is found have no word in the text, those behind it
      -- are of later classes
      rcases he with he | rfl | he
      · have hnone := hbefore e he
        rw [Bool.not_eq_true', ← Bool.not_eq_true, any_occursIn_iff] at hnone
        exact absurd hwords hnone
      · exact hle
      · exact hle.trans (horder.2.1.1 e he)
    · intro h
      exact h (storage, words) (by rw [hkeywords]; simp) hmentions
  · rename_i hfind
    refine iff_of_true (rank_le_string s) fun e he hwords => ?_
    have hnone := List.find?_eq_none.mp hfind e he
    rw [any_occursIn_iff] at hnone
    exact absurd hwords hnone

/-- A text with the words of two others. -/
theorem ofToken_eq_first {text left right : String}
    (h : ∀ e ∈ keywords, Mentions text e.2 ↔ Mentions left e.2 ∨ Mentions right e.2) :
    ofToken text = first (ofToken left) (ofToken right) := by
  -- both sides have the same lower bounds in the order of classes
  have hsame (s : StorageType) : s.rank ≤ (ofToken text).rank ↔
      s.rank ≤ (first (ofToken left) (ofToken right)).rank := by
    rw [rank_first_le_iff, rank_le_iff, rank_le_iff, rank_le_iff]
    constructor
    · intro hle
      exact ⟨fun e he hwords => hle e he ((h e he).mpr (.inl hwords)),
        fun e he hwords => hle e he ((h e he).mpr (.inr hwords))⟩
    · rintro ⟨hleft, hright⟩ e he hwords
      exact ((h e he).mp hwords).elim (hleft e he) (hright e he)
  exact eq_of_rank_eq (le_antisymm ((hsame _).mp le_rfl) ((hsame _).mpr le_rfl))

/-! ## Words of a token with parameters -/

/-- A word of ASCII characters, none of them white space or a bracket. -/
def IsClassWord (word : List Char) : Prop :=
  IsPlainWord word ∧ ')' ∉ word ∧ Text.IsAscii word

instance (word : List Char) : Decidable (IsClassWord word) :=
  inferInstanceAs (Decidable (_ ∧ _))

theorem isClassWord_of_mem : ∀ e ∈ keywords, ∀ word ∈ e.2, IsClassWord word.toList := by
  decide +kernel

section Words

variable {word : List Char}

/-- White space has no letters of a word, in its small form neither. -/
theorem IsClassWord.not_mem_blank (h : IsClassWord word) {blanks : List Char}
    (hblanks : ∀ c ∈ blanks, Text.isBlank c = true) : ∀ c ∈ Text.lowerChars blanks, c ∉ word := by
  obtain ⟨⟨-, hplain⟩, -, hascii⟩ := h
  intro d hd hword
  obtain ⟨c, hc, hd⟩ := List.mem_flatMap.mp hd
  have hblank := hblanks c hc
  by_cases hsmall : c.toNat < 128
  · rw [Text.lowerChar, if_pos hsmall, List.mem_singleton] at hd
    have hnot := (hplain d hword).1
    rw [hd, Text.isBlank_toLower, hblank] at hnot
    cases hnot
  · -- the two characters beyond ASCII with small forms in it are letters, not white space
    rcases Text.lowerChar_cases hsmall with ⟨d', hbeyond, hlower⟩ | ⟨rfl, -⟩ | ⟨rfl, -⟩
    · rw [hlower, List.mem_singleton] at hd
      exact hbeyond (hd ▸ hascii d hword)
    · exact absurd hblank (by decide)
    · exact absurd hblank (by decide)

/-- White space behind a text, or around it, makes no word occur. -/
theorem IsClassWord.infix_spaced (h : IsClassWord word) {cs after : List Char}
    (hafter : ∀ c ∈ after, Text.isBlank c = true) :
    word <:+: Text.lowerChars (cs ++ after) ↔ word <:+: Text.lowerChars cs := by
  rw [Text.lowerChars_append, Text.infix_append_right h.1.1 (h.not_mem_blank hafter)]

theorem IsClassWord.infix_surrounded (h : IsClassWord word) {before cs after : List Char}
    (hbefore : ∀ c ∈ before, Text.isBlank c = true) (hafter : ∀ c ∈ after, Text.isBlank c = true) :
    word <:+: Text.lowerChars (before ++ cs ++ after) ↔ word <:+: Text.lowerChars cs := by
  rw [h.infix_spaced hafter, Text.lowerChars_append,
    Text.infix_append_left h.1.1 (h.not_mem_blank hbefore)]

theorem IsClassWord.infix_trim (h : IsClassWord word) (s : String) :
    word <:+: Text.lowerChars (Text.trim s).toList ↔ word <:+: Text.lowerChars s.toList := by
  obtain ⟨before, after, hbefore, hafter, hs⟩ := Text.exists_trimChars s.toList
  conv_rhs => rw [hs]
  rw [h.infix_surrounded hbefore hafter, Text.trim, String.toList_ofList]

theorem IsClassWord.infix_trimEnd (h : IsClassWord word) (s : String) :
    word <:+: Text.lowerChars (Text.trimEnd s).toList ↔ word <:+: Text.lowerChars s.toList := by
  obtain ⟨after, hafter, hs⟩ := Text.exists_trimEndChars s.toList
  conv_rhs => rw [hs]
  rw [h.infix_spaced hafter, Text.trimEnd, String.toList_ofList]

/-- No occurrence of a word goes across a bracket. -/
theorem IsClassWord.infix_bracketed (h : IsClassWord word) (cs ds : List Char) :
    word <:+: Text.lowerChars (cs ++ '(' :: (ds ++ [')'])) ↔
      word <:+: Text.lowerChars cs ∨ word <:+: Text.lowerChars ds := by
  obtain ⟨⟨hne, hplain⟩, hclose, -⟩ := h
  have hopen : '(' ∉ word := fun hmem => (hplain _ hmem).2 rfl
  have hchars : Text.lowerChars (cs ++ '(' :: (ds ++ [')'])) =
      Text.lowerChars cs ++ (['('] ++ (Text.lowerChars ds ++ [')'])) := by
    rw [← List.singleton_append, Text.lowerChars_append, Text.lowerChars_append,
      Text.lowerChars_append]
    rfl
  rw [hchars, Text.infix_append_iff_or (by simpa using hopen),
    Text.infix_append_left hne (by simpa using hopen),
    Text.infix_append_right hne (by simpa using hclose)]

end Words

/-- The words of a token are those of its keyword and those of its parameters. -/
theorem mentions_parameterized {token params : String}
    (h : (TypeToken.parse token).params = some params) {e : StorageType × List String}
    (he : e ∈ keywords) :
    Mentions token e.2 ↔ Mentions (TypeToken.parse token).base e.2 ∨ Mentions params e.2 := by
  obtain ⟨keyword, inner, hkeyword, hfeed, hwritten⟩ :=
    TypeToken.params_isSome_iff.mp (Option.isSome_of_eq_some h)
  have hparse := TypeToken.parse_of_isWritten hkeyword hfeed hwritten
  obtain ⟨before, between, after, hbefore, hbetween, hafter, htoken⟩ := hwritten
  obtain rfl : Text.trim inner = params := by
    rw [hparse] at h
    exact Option.some.inj h
  have hchars : token.toList = before.toList ++
      (keyword.toList ++ between.toList ++ '(' :: (inner.toList ++ [')'])) ++ after.toList := by
    rw [htoken]
    simp
  simp only [Mentions, ← exists_or, ← and_or_left]
  refine exists_congr fun word => and_congr_right fun hword => ?_
  have hclass := isClassWord_of_mem e he word hword
  rw [hparse, Text.lowerChars_upper (TypeToken.isAscii_trimEnd hkeyword), hclass.infix_trimEnd,
    hclass.infix_trim, hchars,
    hclass.infix_surrounded (Text.toList_allBlank hbefore) (Text.toList_allBlank hafter),
    hclass.infix_bracketed, hclass.infix_spaced (Text.toList_allBlank hbetween)]

/-! ## Tokens with parameters -/

/-- The parameters of a token count for its storage type as the keyword does. The token is of the
class of its keyword or of the class of its parameters, of the one that is tried first; so it is of
the class of its keyword if and only if no word of a class that is tried before is in the
parameters. A field with a keyword for strings has the class of the parameters in the schema. -/
theorem classify_parameterized {token params : String}
    (h : (TypeToken.parse token).params = some params) :
    let ofBase := classify (some (TypeToken.parse token).base)
    classify (some token) = first ofBase (classify (some params)) ∧
    (classify (some token) = ofBase ↔
      ∀ e ∈ keywords, Mentions params e.2 → ofBase.rank ≤ e.1.rank) ∧
    (ofBase = .string → ∀ c : Column, c.dataType = some token →
      (Property.ofColumn c).storage = classify (some params)) := by
  intro ofBase
  have hfirst : classify (some token) = first ofBase (classify (some params)) := by
    change ofToken token = first (ofToken (TypeToken.parse token).base) (ofToken params)
    exact ofToken_eq_first fun e he => mentions_parameterized h he
  refine ⟨hfirst, ?_, fun hstring c hc => ?_⟩
  · rw [hfirst, first_eq_left_iff]
    exact rank_le_iff
  · rw [Property.ofColumn, hc, hfirst, hstring, first_string]

theorem classify_parameterized_setLabels :
    let amount := "Decimal (10, 2)"
    let state := " set('updated', 'Boolean')"
    let field := { Column.untyped "state" with dataType := some state }
    (TypeToken.parse amount).params = some "10, 2" ∧
    classify (some amount) = classify (some (TypeToken.parse amount).base) ∧
    (TypeToken.parse state).params = some "'updated', 'Boolean'" ∧
    (Property.ofColumn field).storage = .bool ∧
    classify (some state) = first (classify (some (TypeToken.parse state).base)) .bool := by
  intro amount state field
  have hamount : (TypeToken.parse amount).params = some "10, 2" := by decide +kernel
  have hstate : (TypeToken.parse state).params = some "'updated', 'Boolean'" := by decide +kernel
  obtain ⟨-, hsame, -⟩ := classify_parameterized hamount
  obtain ⟨hfirst, -, hfield⟩ := classify_parameterized hstate
  have hlabels : classify (some "'updated', 'Boolean'") = .bool := by decide +kernel
  rw [hlabels] at hfirst hfield
  exact ⟨hamount, hsame.mpr (by decide +kernel), hstate,
    hfield (by decide +kernel) field rfl, hfirst⟩

/-- Labels change the storage type of a field whose keyword alone stands for strings. -/
theorem labels_change_storage :
    let token := "ENUM('point','line')"
    TypeToken.parse token = ⟨"ENUM", some "'point','line'"⟩ ∧
    classify (some "ENUM") = .string ∧ classify (some token) = .int ∧
    (Property.ofColumn (.typed "shape" token)).storage = .int := by
  decide +kernel

end StorageType
end SchemaScript
