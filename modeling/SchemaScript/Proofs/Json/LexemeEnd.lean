import SchemaScript.Json.Lexeme

/-!
# SchemaScript.Proofs.Json.LexemeEnd

Where lexemes end. Words and strings end by themselves, so whatever is put behind a text stays
unread (`Closes`). A number ends where something else begins, so there it matters whether anything
was left of the text (`Carries`).
-/

namespace SchemaScript
namespace Json

variable {α : Type}

/-- What `r` reads is read by `r'` with any text behind it. -/
def Closes (r r' : Reader α) : Prop :=
  ∀ ⦃s : List Char⦄ ⦃a : α⦄ ⦃rest : List Char⦄, r s = .ok (a, rest) →
    ∀ tail, r' (s ++ tail) = .ok (a, rest ++ tail)

/-- What `r` reads in front of something is read by `r'` with any text behind it. -/
def Carries (r r' : Reader α) : Prop :=
  ∀ ⦃s : List Char⦄ ⦃a : α⦄ ⦃rest : List Char⦄, r s = .ok (a, rest) → rest ≠ [] →
    ∀ tail, r' (s ++ tail) = .ok (a, rest ++ tail)

theorem dropWhile_append_of_ne_nil {p : α → Bool} {s : List α} (h : s.dropWhile p ≠ [])
    (tail : List α) : (s ++ tail).dropWhile p = s.dropWhile p ++ tail := by
  rw [List.dropWhile_append, if_neg (by simpa using h)]

theorem skipSpace_append_of_eq {s rest : List Char} {c : Char} (h : skipSpace s = c :: rest)
    (tail : List Char) : skipSpace (s ++ tail) = c :: (rest ++ tail) := by
  rw [skipSpace] at h ⊢
  rw [dropWhile_append_of_ne_nil (by simp [h]), h, List.cons_append]

/-! ## Words and strings -/

theorem readWord_closes (word : List Char) : Closes (readWord word) (readWord word) := by
  induction word with
  | nil =>
    intro s a rest h tail
    cases h
    rfl
  | cons c word ih =>
    intro s a rest h tail
    cases s with
    | nil => cases h
    | cons d s =>
      rw [List.cons_append, readWord]
      rw [readWord] at h
      split at h
      · rename_i hc
        rw [if_pos hc]
        exact ih h tail
      · cases h

theorem readHex4_closes : Closes readHex4 readHex4 := by
  intro s n rest h tail
  unfold readHex4 at h
  split at h
  · split at h
    · rename_i hdigits
      cases h
      simp only [List.cons_append, readHex4, hdigits]
    · cases h
  · split at h <;> cases h

theorem readLowSurrogate_closes (high : Nat) :
    Closes (readLowSurrogate high) (readLowSurrogate high) := by
  intro s c rest h tail
  unfold readLowSurrogate at h
  split at h
  · cases h
  · cases h
  · split at h
    · cases h
    · rename_i low left hlow
      simp only [List.cons_append, readLowSurrogate, readHex4_closes hlow tail]
      split at h
      · rename_i hrange
        obtain ⟨rfl, rfl⟩ := Prod.mk.inj (Except.ok.inj h)
        rw [if_pos hrange]
      · cases h
  · cases h
  · cases h

theorem readCodeUnit_closes : Closes readCodeUnit readCodeUnit := by
  intro s c rest h tail
  unfold readCodeUnit at h
  split at h
  · cases h
  · rename_i n left hunit
    simp only [readCodeUnit, readHex4_closes hunit tail]
    split at h
    · cases h
    rename_i hlow
    rw [if_neg hlow]
    split at h
    · rename_i hhigh
      rw [if_pos hhigh]
      exact readLowSurrogate_closes n h tail
    · rename_i hhigh
      cases h
      rw [if_neg hhigh]

theorem readEscape_closes : Closes readEscape readEscape := by
  intro s c rest h tail
  unfold readEscape at h
  split at h
  case h_10 => exact readCodeUnit_closes h tail
  all_goals
    cases h
    try rfl

theorem readStringChars_closes {steps steps' : Nat} (hsteps : steps ≤ steps') :
    Closes (readStringChars steps) (readStringChars steps') := by
  induction steps generalizing steps' with
  | zero =>
    intro s cs rest h
    cases h
  | succ steps ih =>
    intro s cs rest h tail
    obtain ⟨steps', rfl⟩ : ∃ n, steps' = n + 1 := ⟨steps' - 1, by omega⟩
    have hnext := ih (Nat.le_of_succ_le_succ hsteps)
    unfold readStringChars at h
    split at h
    · cases h
    · cases h
    · cases h
      rfl
    · rename_i n more hn
      cases hn
      split at h
      · cases h
      rename_i c left hescape
      split at h
      · cases h
      rename_i hchars
      cases h
      simp only [List.cons_append, readStringChars, readEscape_closes hescape tail,
        hnext hchars tail]
    · rename_i n c more hquote hslash hn
      cases hn
      split at h
      · cases h
      rename_i hcontrol
      split at h
      · cases h
      rename_i hchars
      cases h
      rw [List.cons_append, readStringChars]
      · rw [if_neg hcontrol, hnext hchars tail]
      · exact hquote
      · exact hslash

theorem readString_closes : Closes readString readString := by
  intro s text rest h tail
  unfold readString at h
  split at h
  · cases h
  · rename_i hchars
    cases h
    have hsteps : s.length + 1 ≤ (s ++ tail).length + 1 := by simp
    rw [readString, readStringChars_closes hsteps hchars tail]

/-! ## Numbers -/

theorem takeDigits_append {limit n m : Nat} {s rest : List Char}
    (h : takeDigits limit n s = (m, rest)) (hrest : rest ≠ []) (tail : List Char) :
    takeDigits limit n (s ++ tail) = (m, rest ++ tail) := by
  induction s generalizing n with
  | nil =>
    cases h
    exact absurd rfl hrest
  | cons c s ih =>
    rw [List.cons_append, takeDigits]
    rw [takeDigits] at h
    split at h
    · rename_i hdigit
      rw [if_pos hdigit]
      exact ih h
    · rename_i hdigit
      cases h
      rw [if_neg hdigit, List.cons_append]

/-- The end of a number is only looked at, whatever it is. -/
theorem readDouble_ok {positive : Bool} {significand : Nat} {exponent : Int}
    {s rest : List Char} {n : Number}
    (h : readDouble positive significand exponent s = .ok (n, rest)) :
    rest = s ∧ ∀ s', readDouble positive significand exponent s' = .ok (n, s') := by
  unfold readDouble at h ⊢
  split at h
  · cases h
  · cases h
    exact ⟨rfl, fun _ => rfl⟩

theorem cons_ne_of_head {c d : Char} {s : List Char} (h : ∀ rest, c :: s = d :: rest → False)
    (s' : List Char) : ∀ rest, c :: s' = d :: rest → False := by
  rintro rest ⟨⟩
  exact h s rfl

variable (positive : Bool) (significand : Nat) (scale : Int)

theorem exponentSign_append {s : List Char} (hs : s ≠ []) (tail : List Char) :
    exponentSign (s ++ tail) = ((exponentSign s).1, (exponentSign s).2 ++ tail) := by
  obtain ⟨c, s, rfl⟩ := List.exists_cons_of_ne_nil hs
  by_cases hplus : c = '+'
  · subst hplus
    rfl
  by_cases hminus : c = '-'
  · subst hminus
    rfl
  simp [exponentSign, hplus, hminus]

theorem readExponentDigits_carries (raise : Bool) :
    Carries (readExponentDigits positive significand scale raise)
      (readExponentDigits positive significand scale raise) := by
  intro s n rest h hrest tail
  cases s with
  | nil => cases h
  | cons c s =>
    unfold readExponentDigits at h
    rw [List.cons_append]
    unfold readExponentDigits
    simp only at h ⊢
    split at h
    · rename_i hdigit
      rw [if_pos hdigit]
      rcases htake : takeDigits largestExponent (digitValue c) s with ⟨size, left⟩
      rw [htake] at h
      simp only at h
      have hleft : left ≠ [] := by
        rintro rfl
        exact hrest (readDouble_ok h).1
      rw [takeDigits_append htake hleft]
      obtain ⟨d, more, rfl⟩ := List.exists_cons_of_ne_nil hleft
      simp only [List.cons_append] at h ⊢
      split at h
      · rename_i hd
        rw [if_pos hd]
        split at h
        · cases h
        · rename_i hzero
          cases h
          rw [if_neg hzero, dropWhile_append_of_ne_nil hrest]
      · rename_i hd
        obtain ⟨rfl, hread⟩ := readDouble_ok h
        rw [if_neg hd, hread]
        rfl
    · cases h

theorem readExponent_carries :
    Carries (readExponent positive significand scale)
      (readExponent positive significand scale) := by
  intro s n rest h hrest tail
  have hs : s ≠ [] := by
    rintro rfl
    cases h
  rw [readExponent] at h ⊢
  rw [exponentSign_append hs]
  exact readExponentDigits_carries positive significand scale _ h hrest tail

theorem readScaled_carries :
    Carries (readScaled positive significand scale) (readScaled positive significand scale) := by
  intro s n rest h hrest tail
  unfold readScaled at h
  split at h
  · exact readExponent_carries positive significand scale h hrest tail
  · exact readExponent_carries positive significand scale h hrest tail
  · rename_i hlow hup
    obtain ⟨rfl, hread⟩ := readDouble_ok h
    obtain ⟨c, s, rfl⟩ := List.exists_cons_of_ne_nil hrest
    rw [List.cons_append, readScaled]
    · exact hread _
    · exact cons_ne_of_head hlow _
    · exact cons_ne_of_head hup _

/-- Digits that are passed over do not reach to the end of the text if something is left of it. -/
theorem readScaled_dropWhile {positive : Bool} {significand : Nat} {scale : Int}
    {left rest : List Char} {n : Number}
    (h : readScaled positive significand scale (left.dropWhile isDigit) = .ok (n, rest))
    (hrest : rest ≠ []) : left.dropWhile isDigit ≠ [] := by
  intro hleft
  rw [hleft] at h
  exact hrest (readDouble_ok h).1

theorem ne_nil_of_dropWhile {left : List Char} (h : left.dropWhile isDigit ≠ []) : left ≠ [] := by
  rintro rfl
  exact h rfl

theorem readFraction_carries :
    Carries (readFraction positive significand scale)
      (readFraction positive significand scale) := by
  intro s n rest h hrest tail
  cases s with
  | nil => cases h
  | cons c s =>
    unfold readFraction at h
    rw [List.cons_append]
    unfold readFraction
    simp only at h ⊢
    split at h
    · rename_i hdigit
      rw [if_pos hdigit]
      rcases htake : takeDigits largestNatural significand (c :: s) with ⟨m, left⟩
      rw [htake] at h
      simp only at h
      have hleft := readScaled_dropWhile h hrest
      have hlength : (c :: (s ++ tail)).length - (left ++ tail).length =
          (c :: s).length - left.length := by
        simp only [List.length_cons, List.length_append]
        omega
      rw [← List.cons_append, takeDigits_append htake (ne_nil_of_dropWhile hleft)]
      simp only [List.cons_append, hlength, dropWhile_append_of_ne_nil hleft]
      exact readScaled_carries positive m _ h hrest tail
    · cases h

theorem readNumberTail_whole {s : List Char} (hpoint : ∀ rest, s = '.' :: rest → False)
    (hlow : ∀ rest, s = 'e' :: rest → False) (hup : ∀ rest, s = 'E' :: rest → False) :
    readNumberTail positive significand s = .ok (wholeNumber positive significand, s) := by
  rw [readNumberTail]
  · exact hpoint
  · exact hlow
  · exact hup

theorem readNumberTail_nil :
    readNumberTail positive significand [] = .ok (wholeNumber positive significand, []) :=
  readNumberTail_whole positive significand (by simp) (by simp) (by simp)

theorem readNumberTail_carries :
    Carries (readNumberTail positive significand) (readNumberTail positive significand) := by
  intro s n rest h hrest tail
  cases s with
  | nil =>
    rw [readNumberTail_nil] at h
    cases h
    exact absurd rfl hrest
  | cons c s =>
    by_cases hpoint : c = '.'
    · subst hpoint
      exact readFraction_carries positive significand 0 h hrest tail
    by_cases hlow : c = 'e'
    · subst hlow
      exact readExponent_carries positive significand 0 h hrest tail
    by_cases hup : c = 'E'
    · subst hup
      exact readExponent_carries positive significand 0 h hrest tail
    rw [readNumberTail_whole] at h
    · cases h
      rw [List.cons_append, readNumberTail_whole] <;> simp [hpoint, hlow, hup]
    all_goals simp [hpoint, hlow, hup]

theorem takeWhile_append_of_dropWhile {α : Type} {p : α → Bool} {s : List α}
    (h : s.dropWhile p ≠ []) (tail : List α) : (s ++ tail).takeWhile p = s.takeWhile p := by
  rw [List.takeWhile_append, if_neg]
  intro hlength
  have hsplit := congrArg List.length (List.takeWhile_append_dropWhile (p := p) (l := s))
  rw [List.length_append] at hsplit
  exact h (List.length_eq_zero_iff.mp (by omega))

theorem readLong_carries (n : Nat) : Carries (readLong positive n) (readLong positive n) := by
  intro s m rest h hrest tail
  unfold readLong at h ⊢
  by_cases hs : s.dropWhile isDigit = []
  · split at h
    · rename_i hdigits
      have hsplit := List.takeWhile_append_dropWhile (p := isDigit) (l := s)
      rw [hdigits, hs] at hsplit
      rw [← hsplit, List.nil_append, readNumberTail_nil] at h
      cases h
      exact absurd rfl hrest
    · rw [hs] at h
      exact absurd (readDouble_ok h).1 hrest
  · rw [takeWhile_append_of_dropWhile hs, dropWhile_append_of_ne_nil hs]
    split at h
    · exact readNumberTail_carries positive n h hrest tail
    · simp only at h ⊢
      split at h
      · rename_i hpoint
        rw [hpoint]
        exact readFraction_carries positive n _ h hrest tail
      · rename_i hpoint
        obtain ⟨c, more, hmore⟩ := List.exists_cons_of_ne_nil hs
        rw [hmore] at h hpoint ⊢
        split
        · rename_i hcons
          cases hcons
          exact (hpoint _ rfl).elim
        · exact readScaled_carries positive n _ h hrest tail

theorem readNumber_digit {c : Char} (hzero : c ≠ '0') (hdigit : isDigit c = true)
    (s : List Char) :
    let digits := takeDigits largestNatural (digitValue c) s
    readNumber positive (c :: s) = readLong positive digits.1 digits.2 := by
  rw [readNumber]
  · rw [if_pos hdigit]
  · simpa using hzero

theorem digit_of_readNumber {c : Char} {s rest : List Char} {n : Number}
    (h : readNumber positive (c :: s) = .ok (n, rest)) (hzero : c ≠ '0') : isDigit c = true := by
  refine Classical.byContradiction fun hdigit => ?_
  rw [readNumber, if_neg hdigit] at h
  · cases h
  · simpa using hzero

theorem readNumber_carries : Carries (readNumber positive) (readNumber positive) := by
  intro s n rest h hrest tail
  cases s with
  | nil => cases h
  | cons c s =>
    by_cases hzero : c = '0'
    · subst hzero
      cases s with
      | nil =>
        cases (readNumberTail_nil positive 0).symm.trans h
        exact absurd rfl hrest
      | cons d s =>
        simp only [List.cons_append, readNumber] at h ⊢
        split at h
        · cases h
        · rename_i hdigit
          rw [if_neg hdigit]
          exact readNumberTail_carries positive 0 h hrest tail
    · have hdigit := digit_of_readNumber positive h hzero
      rw [readNumber_digit positive hzero hdigit] at h
      rw [List.cons_append, readNumber_digit positive hzero hdigit]
      rcases htake : takeDigits largestNatural (digitValue c) s with ⟨m, left⟩
      rw [htake] at h
      have hleft : left ≠ [] := by
        rintro rfl
        have hnil : readLong positive m [] = .ok (wholeNumber positive m, []) :=
          readNumberTail_nil positive m
        cases hnil.symm.trans h
        exact hrest rfl
      rw [takeDigits_append htake hleft]
      exact readLong_carries positive m h hrest tail

end Json
end SchemaScript
