import SchemaScript.Proofs.Json.LexemeEnd
import SchemaScript.Proofs.Json.Spelling

/-!
# SchemaScript.Proofs.Json.LexemeLayout

Texts whose lines end and begin with other white space (`Relaid`), and the lexemes in them.

No lexeme goes over the end of a line, strings included. So where a lexeme is read from one of two
such texts the same one is read from the other, and what is left of them is again such a pair
(`Follows`). The relation is symmetric, which is why nothing has to be said about faults.
-/

namespace SchemaScript
namespace Json

variable {α : Type}

def isLineMark (c : Char) : Bool :=
  c == '\n' || c == '\r'

/-- White space from the end of a line on. -/
def IsBreak (ws : List Char) : Prop :=
  ∃ c rest, ws = c :: rest ∧ isLineMark c = true ∧ IsSpaces rest

/-- Texts that differ only in the white space from the end of a line on. Where nothing else follows,
there may be none of it. -/
inductive Relaid : List Char → List Char → Prop where
  | ends {ws ws' : List Char} : ws = [] ∨ IsBreak ws → ws' = [] ∨ IsBreak ws' → Relaid ws ws'
  | same (c : Char) {s t : List Char} : Relaid s t → Relaid (c :: s) (c :: t)
  | breaks {ws ws' s t : List Char} :
      IsBreak ws → IsBreak ws' → Relaid s t → Relaid (ws ++ s) (ws' ++ t)

theorem isLineMark_iff {c : Char} : isLineMark c = true ↔ c = '\n' ∨ c = '\r' := by
  simp [isLineMark]

theorem isSpace_of_isLineMark {c : Char} (h : isLineMark c = true) : isSpace c = true := by
  rcases isLineMark_iff.mp h with rfl | rfl <;> rfl

theorem IsBreak.isSpaces {ws : List Char} (h : IsBreak ws) : IsSpaces ws := by
  obtain ⟨c, rest, rfl, hc, hrest⟩ := h
  exact isSpaces_cons (isSpace_of_isLineMark hc) hrest

namespace Relaid

variable {s t : List Char}

theorem symm (h : Relaid s t) : Relaid t s := by
  induction h with
  | ends hws hws' => exact .ends hws' hws
  | same c _ ih => exact .same c ih
  | breaks hws hws' _ ih => exact .breaks hws' hws ih

theorem refl (s : List Char) : Relaid s s := by
  induction s with
  | nil => exact .ends (.inl rfl) (.inl rfl)
  | cons c s ih => exact .same c ih

theorem prepend (h : Relaid s t) (cs : List Char) : Relaid (cs ++ s) (cs ++ t) := by
  induction cs with
  | nil => exact h
  | cons c cs ih => exact .same c ih

end Relaid

/-- Nothing is left of the line. -/
def IsLineEnd (s : List Char) : Prop :=
  s = [] ∨ ∃ c rest, s = c :: rest ∧ isLineMark c = true

theorem IsBreak.isLineEnd {ws : List Char} (h : IsBreak ws) (s : List Char) :
    IsLineEnd (ws ++ s) := by
  obtain ⟨c, rest, rfl, hc, -⟩ := h
  exact .inr ⟨c, rest ++ s, rfl, hc⟩

theorem isLineEnd_of_ends {ws : List Char} (h : ws = [] ∨ IsBreak ws) : IsLineEnd ws := by
  rcases h with rfl | h
  · exact .inl rfl
  · simpa using h.isLineEnd []

theorem IsLineEnd.mark {c : Char} {s : List Char} (h : IsLineEnd (c :: s)) :
    isLineMark c = true := by
  obtain h | ⟨d, rest, h, hd⟩ := h
  · cases h
  · cases h
    exact hd

namespace Relaid

variable {s t : List Char}

/-- Both texts go on with the same character, unless nothing is left of the line. -/
theorem head (h : Relaid s t) :
    (∃ c u v, s = c :: u ∧ t = c :: v ∧ Relaid u v) ∨ (IsLineEnd s ∧ IsLineEnd t) := by
  cases h with
  | ends hws hws' => exact .inr ⟨isLineEnd_of_ends hws, isLineEnd_of_ends hws'⟩
  | same c h => exact .inl ⟨c, _, _, rfl, rfl, h⟩
  | breaks hws hws' _ => exact .inr ⟨hws.isLineEnd _, hws'.isLineEnd _⟩

/-- What holds at the ends of lines, and passes to texts with one more character in front, holds of
the two texts. -/
@[elab_as_elim]
theorem lockstep {motive : ∀ s t, Relaid s t → Prop} {s t : List Char} (h : Relaid s t)
    (ends : ∀ {s t} (h : Relaid s t), IsLineEnd s → IsLineEnd t → motive s t h)
    (same : ∀ (c : Char) {s t} (h : Relaid s t), motive s t h →
      motive (c :: s) (c :: t) (.same c h)) :
    motive s t h := by
  induction h with
  | ends hws hws' => exact ends (.ends hws hws') (isLineEnd_of_ends hws) (isLineEnd_of_ends hws')
  | same c h ih => exact same c h ih
  | breaks hws hws' h _ => exact ends (.breaks hws hws' h) (hws.isLineEnd _) (hws'.isLineEnd _)

theorem of_cons {c : Char} (h : Relaid (c :: s) t) (hc : isLineMark c = false) :
    ∃ u, t = c :: u ∧ Relaid s u := by
  rcases h.head with ⟨d, u, v, hs, rfl, huv⟩ | ⟨hs, -⟩
  · cases hs
    exact ⟨v, rfl, huv⟩
  · rw [hs.mark] at hc
    cases hc

theorem of_append (cs : List Char) (h : Relaid (cs ++ s) t)
    (hcs : cs.any isLineMark = false) : ∃ u, t = cs ++ u ∧ Relaid s u := by
  induction cs generalizing t with
  | nil => exact ⟨t, rfl, h⟩
  | cons c cs ih =>
    rw [List.any_cons, Bool.or_eq_false_iff] at hcs
    obtain ⟨v, rfl, hv⟩ := h.of_cons hcs.1
    obtain ⟨u, rfl, hu⟩ := ih hv hcs.2
    exact ⟨u, rfl, hu⟩

theorem ne_cons (h : Relaid s t) {c : Char} (hc : isLineMark c = false)
    (hs : ∀ rest, s = c :: rest → False) : ∀ rest, t = c :: rest → False := by
  rintro rest rfl
  obtain ⟨u, hu, -⟩ := h.symm.of_cons hc
  exact hs u hu

/-- Behind white space both texts go on in the same way. -/
theorem skipSpace_cons (h : Relaid s t) {c : Char} {u : List Char} (hs : skipSpace s = c :: u) :
    ∃ v, skipSpace t = c :: v ∧ Relaid u v ∧ v.length + 1 ≤ t.length := by
  induction h with
  | @ends ws _ hws _ =>
    have hspaces : IsSpaces ws := hws.elim (fun h => h ▸ isSpaces_nil) (·.isSpaces)
    have hskip := skipSpace_append hspaces []
    rw [List.append_nil, hs] at hskip
    cases hskip
  | @same d s t h ih =>
    by_cases hd : isSpace d = true
    · have hskip (s : List Char) : skipSpace (d :: s) = skipSpace s :=
        skipSpace_append (isSpaces_cons hd isSpaces_nil) s
      rw [hskip] at hs
      obtain ⟨v, hv, huv, hlength⟩ := ih hs
      exact ⟨v, by rw [hskip, hv], huv, by rw [List.length_cons]; omega⟩
    · have hskip (s : List Char) : skipSpace (d :: s) = d :: s :=
        Json.skipSpace_cons (by simpa using hd) s
      rw [hskip] at hs
      cases hs
      exact ⟨t, hskip t, h, by simp⟩
  | @breaks ws ws' s t hws hws' _ ih =>
    rw [skipSpace_append hws.isSpaces] at hs
    obtain ⟨v, hv, huv, hlength⟩ := ih hs
    refine ⟨v, by rw [skipSpace_append hws'.isSpaces, hv], huv, ?_⟩
    rw [List.length_append]
    omega

theorem skipSpace_nil (h : Relaid s t) (hs : skipSpace s = []) : skipSpace t = [] := by
  cases ht : skipSpace t with
  | nil => rfl
  | cons c v =>
    obtain ⟨u, hu, -, -⟩ := h.symm.skipSpace_cons ht
    rw [hs] at hu
    cases hu

end Relaid

/-- What `r` reads from a text is read by `r'` from the text in another layout, where it has at
least `n` characters. -/
def Follows (n : Nat) (r r' : Reader α) : Prop :=
  ∀ ⦃s t : List Char⦄, Relaid s t → ∀ ⦃a : α⦄ ⦃rest : List Char⦄, r s = .ok (a, rest) →
    ∃ rest', r' t = .ok (a, rest') ∧ Relaid rest rest' ∧ rest'.length + n ≤ t.length

/-- Behind a character that both texts have, what is read from one is read from the other. -/
theorem Follows.behind {n : Nat} {r r' : Reader α} (hr : Follows n r r') {c : Char}
    (hc : isLineMark c = false) {s t rest : List Char} {a : α} (h : Relaid (c :: s) t)
    (hread : r s = .ok (a, rest)) :
    ∃ u rest', t = c :: u ∧ r' u = .ok (a, rest') ∧ Relaid rest rest' ∧
      rest'.length + n ≤ t.length := by
  obtain ⟨u, rfl, hu⟩ := h.of_cons hc
  obtain ⟨rest', hrest', hrest, hlength⟩ := hr hu hread
  exact ⟨u, rest', rfl, hrest', hrest, by rw [List.length_cons]; omega⟩

/-! ## Words and strings -/

theorem readWord_eq_ok {word s rest : List Char} :
    readWord word s = .ok ((), rest) ↔ s = word ++ rest := by
  induction word generalizing s with
  | nil => simp [readWord]
  | cons c word ih =>
    cases s with
    | nil => simp [readWord, fail]
    | cons d s =>
      rw [readWord]
      split
      · rename_i hc
        rw [ih, hc, List.cons_append, List.cons_inj_right]
      · rename_i hc
        simp [fail, Ne.symm hc]

theorem readWord_follows {word : List Char} (hword : word.any isLineMark = false) :
    Follows 0 (readWord word) (readWord word) := by
  intro s t h a rest hread
  obtain rfl := readWord_eq_ok.mp hread
  obtain ⟨u, rfl, hu⟩ := Relaid.of_append word h hword
  exact ⟨u, readWord_eq_ok.mpr rfl, hu, by simp⟩

theorem hexNumber?_eq_none {cs : List Char} {c : Char} (hc : c ∈ cs)
    (hvalue : Text.hexValue? c = none) : Text.hexNumber? cs = none := by
  let step (acc : Option Nat) (c : Char) : Option Nat :=
    acc.bind fun n => (Text.hexValue? c).map (16 * n + ·)
  have hstep (acc : Option Nat) : step acc c = none := by
    cases acc <;> simp [step, hvalue]
  have hnone (ds : List Char) : ds.foldl step none = none := by
    induction ds with
    | nil => rfl
    | cons d ds ih => exact ih
  obtain ⟨before, after, rfl⟩ := List.append_of_mem hc
  have hnumber : Text.hexNumber? (before ++ c :: after) =
      (before ++ c :: after).foldl step (some 0) := rfl
  rw [hnumber, List.foldl_append, List.foldl_cons, hstep, hnone]

theorem any_isLineMark_of_hexNumber? {cs : List Char} {n : Nat}
    (h : Text.hexNumber? cs = some n) : cs.any isLineMark = false := by
  rw [List.any_eq_false]
  intro c hc hmark
  have hvalue : Text.hexValue? c = none := by
    rcases isLineMark_iff.mp hmark with rfl | rfl <;> rfl
  rw [hexNumber?_eq_none hc hvalue] at h
  cases h

theorem readHex4_follows : Follows 0 readHex4 readHex4 := by
  intro s t h n rest hread
  unfold readHex4 at hread
  split at hread
  · rename_i a b c d left
    split at hread
    · rename_i hnumber
      cases hread
      have hdigits := any_isLineMark_of_hexNumber? hnumber
      obtain ⟨u, rfl, hu⟩ := Relaid.of_append [a, b, c, d] h hdigits
      refine ⟨u, ?_, hu, by rw [List.length_append]; omega⟩
      simp only [List.cons_append, List.nil_append, readHex4, hnumber]
    · cases hread
  · split at hread <;> cases hread

theorem readLowSurrogate_follows (high : Nat) :
    Follows 0 (readLowSurrogate high) (readLowSurrogate high) := by
  intro s t h c rest hread
  unfold readLowSurrogate at hread
  split at hread
  · cases hread
  · cases hread
  · rename_i left
    obtain ⟨u, rfl, hu⟩ := Relaid.of_append ['\\', 'u'] h rfl
    split at hread
    · cases hread
    · rename_i low left' hlow
      obtain ⟨v, hv, hrest, hlength⟩ := readHex4_follows hu hlow
      split at hread
      · rename_i hrange
        obtain ⟨rfl, rfl⟩ := Prod.mk.inj (Except.ok.inj hread)
        refine ⟨v, ?_, hrest, by rw [List.length_append]; omega⟩
        simp only [List.cons_append, List.nil_append, readLowSurrogate, hv, hrange, if_true]
      · cases hread
  · cases hread
  · cases hread

theorem readCodeUnit_follows : Follows 0 readCodeUnit readCodeUnit := by
  intro s t h c rest hread
  unfold readCodeUnit at hread
  split at hread
  · cases hread
  · rename_i n left hunit
    obtain ⟨u, hu, hleft, hlength⟩ := readHex4_follows h hunit
    simp only [readCodeUnit, hu]
    split at hread
    · cases hread
    rename_i hlow
    rw [if_neg hlow]
    split at hread
    · rename_i hhigh
      rw [if_pos hhigh]
      obtain ⟨v, hv, hrest, hlength'⟩ := readLowSurrogate_follows n hleft hread
      exact ⟨v, hv, hrest, by omega⟩
    · rename_i hhigh
      cases hread
      rw [if_neg hhigh]
      exact ⟨u, rfl, hleft, hlength⟩

theorem readEscape_follows : Follows 0 readEscape readEscape := by
  intro s t h c rest hread
  unfold readEscape at hread
  split at hread
  case h_10 =>
    obtain ⟨u, rest', rfl, hu⟩ := readCodeUnit_follows.behind (by decide) h hread
    exact ⟨rest', hu⟩
  all_goals
    cases hread
    try
      obtain ⟨u, rfl, hu⟩ := h.of_cons (by decide)
      exact ⟨u, rfl, hu, by simp⟩

/-- A string that is read has no line ends, so that both texts have the same characters up to its
closing quote. -/
theorem readStringChars_follows {steps : Nat} :
    ∀ {steps' : Nat} {s t : List Char}, Relaid s t → t.length < steps' →
      ∀ {cs rest : List Char}, readStringChars steps s = .ok (cs, rest) →
        ∃ rest', readStringChars steps' t = .ok (cs, rest') ∧ Relaid rest rest' ∧
          rest'.length ≤ t.length := by
  induction steps with
  | zero =>
    intro steps' s t _ _ cs rest hread
    cases hread
  | succ steps ih =>
    intro steps' s t h hsteps cs rest hread
    obtain ⟨steps', rfl⟩ : ∃ n, steps' = n + 1 := ⟨steps' - 1, by omega⟩
    rcases h.head with ⟨c, u, v, rfl, rfl, huv⟩ | ⟨hs, -⟩
    · simp only [List.length_cons] at hsteps ⊢
      by_cases hquote : c = '"'
      · subst hquote
        cases hread
        exact ⟨v, rfl, huv, by omega⟩
      by_cases hslash : c = '\\'
      · subst hslash
        rw [readStringChars] at hread
        split at hread
        · cases hread
        rename_i d left hescape
        split at hread
        · cases hread
        rename_i ds left' hchars
        cases hread
        obtain ⟨w, hw, hleft, hlength⟩ := readEscape_follows huv hescape
        obtain ⟨x, hx, hrest, hlength'⟩ := ih hleft (by omega : w.length < steps') hchars
        exact ⟨x, by simp only [readStringChars, hw, hx], hrest, by omega⟩
      · rw [readStringChars] at hread
        · split at hread
          · cases hread
          rename_i hcontrol
          split at hread
          · cases hread
          rename_i ds left hchars
          cases hread
          obtain ⟨x, hx, hrest, hlength⟩ := ih huv (by omega : v.length < steps') hchars
          refine ⟨x, ?_, hrest, by omega⟩
          rw [readStringChars]
          · rw [if_neg hcontrol, hx]
          · exact hquote
          · exact hslash
        · exact hquote
        · exact hslash
    · obtain rfl | ⟨c, left, rfl, hc⟩ := hs
      · cases hread
      · rcases isLineMark_iff.mp hc with rfl | rfl <;> cases hread

theorem readString_follows : Follows 0 readString readString := by
  intro s t h text rest hread
  unfold readString at hread
  split at hread
  · cases hread
  · rename_i cs left hchars
    cases hread
    obtain ⟨u, hu, hrest, hlength⟩ := readStringChars_follows h (Nat.lt_succ_self t.length) hchars
    exact ⟨u, by rw [readString, hu], hrest, hlength⟩

/-! ## Numbers -/

theorem isDigit_of_isLineMark {c : Char} (h : isLineMark c = true) : isDigit c = false := by
  rcases isLineMark_iff.mp h with rfl | rfl <;> rfl

theorem isLineMark_of_isDigit {c : Char} (h : isDigit c = true) : isLineMark c = false := by
  cases hc : isLineMark c with
  | false => rfl
  | true => rw [isDigit_of_isLineMark hc] at h; cases h

/-- Digits end with the line. -/
theorem IsLineEnd.digits {s : List Char} (h : IsLineEnd s) :
    s.takeWhile isDigit = [] ∧ s.dropWhile isDigit = s := by
  obtain rfl | ⟨c, rest, rfl, hc⟩ := h
  · exact ⟨rfl, rfl⟩
  · have hdigit := isDigit_of_isLineMark hc
    exact ⟨List.takeWhile_cons_of_neg (by simp [hdigit]),
      List.dropWhile_cons_of_neg (by simp [hdigit])⟩

theorem IsLineEnd.takeDigits {s : List Char} (h : IsLineEnd s) (limit n : Nat) :
    takeDigits limit n s = (n, s) := by
  obtain rfl | ⟨c, rest, rfl, hc⟩ := h
  · rfl
  · rw [Json.takeDigits, if_neg]
    simp [isDigit_of_isLineMark hc]

namespace Relaid

variable {s t : List Char}

theorem digits (h : Relaid s t) :
    s.takeWhile isDigit = t.takeWhile isDigit ∧
      Relaid (s.dropWhile isDigit) (t.dropWhile isDigit) := by
  induction h using lockstep with
  | ends h hs ht =>
    rw [hs.digits.1, hs.digits.2, ht.digits.1, ht.digits.2]
    exact ⟨rfl, h⟩
  | same c h ih =>
    by_cases hc : isDigit c = true
    · simp only [List.takeWhile_cons_of_pos hc, List.dropWhile_cons_of_pos hc, ih.1]
      exact ⟨trivial, ih.2⟩
    · simp only [List.takeWhile_cons_of_neg hc, List.dropWhile_cons_of_neg hc]
      exact ⟨trivial, .same c h⟩

theorem takeDigits (h : Relaid s t) (limit n : Nat) :
    ∃ taken u v, s = taken ++ u ∧ t = taken ++ v ∧ Relaid u v ∧
      ∃ m, takeDigits limit n s = (m, u) ∧ takeDigits limit n t = (m, v) := by
  induction h using lockstep generalizing n with
  | ends h hs ht =>
    exact ⟨[], _, _, rfl, rfl, h, n, hs.takeDigits limit n, ht.takeDigits limit n⟩
  | @same c s t h ih =>
    by_cases hc : isDigit c ∧ 10 * n + digitValue c ≤ limit
    · obtain ⟨taken, u, v, hs, ht, huv, m, hm, hm'⟩ := ih (10 * n + digitValue c)
      refine ⟨c :: taken, u, v, by rw [hs, List.cons_append], by rw [ht, List.cons_append], huv, m,
        ?_, ?_⟩
      · rw [Json.takeDigits, if_pos hc, hm]
      · rw [Json.takeDigits, if_pos hc, hm']
    · refine ⟨[], _, _, rfl, rfl, .same c h, n, ?_, ?_⟩ <;> rw [Json.takeDigits, if_neg hc]

end Relaid

variable (positive : Bool) (significand : Nat) (scale : Int)

theorem readDouble_follows :
    Follows 0 (readDouble positive significand scale) (readDouble positive significand scale) := by
  intro s t h n rest hread
  obtain ⟨rfl, hdouble⟩ := readDouble_ok hread
  exact ⟨t, hdouble t, h, Nat.le_refl _⟩

/-- Digits that do not fit into an exponent are passed over if the number is zero all the same. -/
theorem readExponentDigits_digit (raise : Bool) {c : Char} (hc : isDigit c = true)
    {s left : List Char} {size : Nat}
    (h : takeDigits largestExponent (digitValue c) s = (size, left)) :
    readExponentDigits positive significand scale raise (c :: s) =
      if left.takeWhile isDigit = [] then
        readDouble positive significand (if raise then scale + size else scale - size) left
      else if significand ≠ 0 ∧ raise then fail .numberOutOfRange left.tail 0
      else .ok (.double (if positive then 0.0 else -0.0 : Float).toBits,
        left.dropWhile isDigit) := by
  unfold readExponentDigits
  simp only [hc, if_true, h]
  cases left with
  | nil => rfl
  | cons d more =>
    by_cases hd : isDigit d = true
    · simp only [hd, if_true, List.takeWhile_cons_of_pos, List.dropWhile_cons_of_pos,
        List.cons_ne_nil, if_false, List.tail_cons]
    · simp only [hd, List.takeWhile_cons_of_neg, if_true, Bool.false_eq_true, if_false,
        not_false_eq_true]

theorem digit_of_readExponentDigits {raise : Bool} {s rest : List Char} {n : Number}
    (h : readExponentDigits positive significand scale raise s = .ok (n, rest)) :
    ∃ c more, s = c :: more ∧ isDigit c = true := by
  cases s with
  | nil => cases h
  | cons c more =>
    refine ⟨c, more, rfl, Classical.byContradiction fun hc => ?_⟩
    rw [readExponentDigits, if_neg hc] at h
    cases h

theorem readExponentDigits_follows (raise : Bool) :
    Follows 0 (readExponentDigits positive significand scale raise)
      (readExponentDigits positive significand scale raise) := by
  intro s t h n rest hread
  obtain ⟨c, s, rfl, hc⟩ := digit_of_readExponentDigits positive significand scale hread
  obtain ⟨t, rfl, hst⟩ := h.of_cons (isLineMark_of_isDigit hc)
  obtain ⟨taken, u, v, rfl, rfl, huv, size, hsize, hsize'⟩ :=
    hst.takeDigits largestExponent (digitValue c)
  obtain ⟨htake, hdrop⟩ := huv.digits
  have hlength : v.length ≤ (c :: (taken ++ v)).length := by
    rw [List.length_cons, List.length_append]
    omega
  rw [readExponentDigits_digit _ _ _ _ hc hsize, htake] at hread
  rw [readExponentDigits_digit _ _ _ _ hc hsize']
  split at hread
  · rename_i hfits
    rw [if_pos hfits]
    obtain ⟨w, hw, hrest, hlength'⟩ := readDouble_follows positive significand _ huv hread
    exact ⟨w, hw, hrest, by omega⟩
  · rename_i hmore
    rw [if_neg hmore]
    split at hread
    · cases hread
    · rename_i hzero
      cases hread
      have hlength' := (List.dropWhile_sublist (l := v) isDigit).length_le
      exact ⟨_, if_neg hzero, hdrop, by omega⟩

theorem Relaid.exponentSign {s t : List Char} (h : Relaid s t) :
    (exponentSign s).1 = (exponentSign t).1 ∧ Relaid (exponentSign s).2 (exponentSign t).2 ∧
      (exponentSign t).2.length ≤ t.length := by
  unfold Json.exponentSign
  split
  · obtain ⟨u, rfl, hu⟩ := h.of_cons (by decide)
    exact ⟨rfl, hu, by simp⟩
  · obtain ⟨u, rfl, hu⟩ := h.of_cons (by decide)
    exact ⟨rfl, hu, by simp⟩
  · rename_i hplus hminus
    split
    · exact (h.ne_cons (by decide) hplus _ rfl).elim
    · exact (h.ne_cons (by decide) hminus _ rfl).elim
    · exact ⟨rfl, h, Nat.le_refl _⟩

theorem readExponent_follows :
    Follows 0 (readExponent positive significand scale)
      (readExponent positive significand scale) := by
  intro s t h n rest hread
  obtain ⟨hsign, hdigits, hlength⟩ := h.exponentSign
  simp only [readExponent, hsign] at hread ⊢
  obtain ⟨u, hu, hrest, hlength'⟩ :=
    readExponentDigits_follows positive significand scale _ hdigits hread
  exact ⟨u, hu, hrest, by omega⟩

theorem readScaled_follows :
    Follows 0 (readScaled positive significand scale) (readScaled positive significand scale) := by
  intro s t h n rest hread
  have hexponent := readExponent_follows positive significand scale
  unfold readScaled at hread
  split at hread
  · obtain ⟨u, rest', rfl, hu⟩ := hexponent.behind (by decide) h hread
    exact ⟨rest', hu⟩
  · obtain ⟨u, rest', rfl, hu⟩ := hexponent.behind (by decide) h hread
    exact ⟨rest', hu⟩
  · rename_i hlow hup
    rw [readScaled]
    · exact readDouble_follows positive significand scale h hread
    · exact h.ne_cons (by decide) hlow
    · exact h.ne_cons (by decide) hup

theorem readFraction_follows :
    Follows 0 (readFraction positive significand scale)
      (readFraction positive significand scale) := by
  intro s t h n rest hread
  cases s with
  | nil => cases hread
  | cons c s =>
    unfold readFraction at hread
    simp only at hread
    split at hread
    · rename_i hc
      obtain ⟨t, rfl, -⟩ := h.of_cons (isLineMark_of_isDigit hc)
      obtain ⟨taken, u, v, hs, ht, huv, m, hm, hm'⟩ := h.takeDigits largestNatural significand
      have hcount {whole left : List Char} (h : whole = taken ++ left) :
          whole.length - left.length = taken.length := by
        rw [h, List.length_append, Nat.add_sub_cancel]
      simp only [hm, hcount hs] at hread
      obtain ⟨w, hw, hrest, hlength⟩ := readScaled_follows positive m _ huv.digits.2 hread
      refine ⟨w, by simp only [readFraction, hc, if_true, hm', hcount ht, hw], hrest, ?_⟩
      have hdrop := (List.dropWhile_sublist (l := v) isDigit).length_le
      rw [ht, List.length_append]
      omega
    · cases hread

theorem readNumberTail_follows :
    Follows 0 (readNumberTail positive significand) (readNumberTail positive significand) := by
  intro s t h n rest hread
  have hexponent := readExponent_follows positive significand 0
  unfold readNumberTail at hread
  split at hread
  · have hfraction := readFraction_follows positive significand 0
    obtain ⟨u, rest', rfl, hu⟩ := hfraction.behind (by decide) h hread
    exact ⟨rest', hu⟩
  · obtain ⟨u, rest', rfl, hu⟩ := hexponent.behind (by decide) h hread
    exact ⟨rest', hu⟩
  · obtain ⟨u, rest', rfl, hu⟩ := hexponent.behind (by decide) h hread
    exact ⟨rest', hu⟩
  · rename_i hpoint hlow hup
    cases hread
    refine ⟨t, ?_, h, Nat.le_refl _⟩
    exact readNumberTail_whole positive significand (h.ne_cons (by decide) hpoint)
      (h.ne_cons (by decide) hlow) (h.ne_cons (by decide) hup)

theorem readLong_follows :
    Follows 0 (readLong positive significand) (readLong positive significand) := by
  intro s t h n rest hread
  obtain ⟨htake, hdrop⟩ := h.digits
  have hlength := (List.dropWhile_sublist (l := t) isDigit).length_le
  unfold readLong at hread ⊢
  rw [← htake]
  split at hread
  · exact readNumberTail_follows positive significand h hread
  · simp only at hread ⊢
    split at hread
    · rename_i more hpoint
      rw [hpoint] at hdrop
      have hfraction := readFraction_follows positive significand (s.takeWhile isDigit).length
      obtain ⟨u, rest', hu, hread', hrest, hlength'⟩ := hfraction.behind (by decide) hdrop hread
      rw [hu]
      exact ⟨rest', hread', hrest, by omega⟩
    · rename_i hpoint
      obtain ⟨w, hw, hrest, hlength'⟩ := readScaled_follows positive significand _ hdrop hread
      refine ⟨w, ?_, hrest, by omega⟩
      split
      · rename_i hpoint'
        exact (hdrop.ne_cons (by decide) hpoint _ hpoint').elim
      · exact hw

theorem readNumber_zero {s rest : List Char} {n : Number} :
    readNumber positive ('0' :: s) = .ok (n, rest) ↔
      s.takeWhile isDigit = [] ∧ readNumberTail positive 0 s = .ok (n, rest) := by
  cases s with
  | nil => simp [readNumber]
  | cons c s =>
    rw [readNumber]
    by_cases hc : isDigit c = true
    · simp [hc, fail]
    · simp [hc]

theorem readNumber_follows : Follows 1 (readNumber positive) (readNumber positive) := by
  intro s t h n rest hread
  cases s with
  | nil => cases hread
  | cons c s =>
    by_cases hzero : c = '0'
    · subst hzero
      obtain ⟨t, rfl, hst⟩ := h.of_cons (by decide)
      obtain ⟨hdigits, htail⟩ := (readNumber_zero positive).mp hread
      rw [hst.digits.1] at hdigits
      obtain ⟨u, hu, hrest, hlength⟩ := readNumberTail_follows positive 0 hst htail
      exact ⟨u, (readNumber_zero positive).mpr ⟨hdigits, hu⟩, hrest, Nat.succ_le_succ hlength⟩
    · have hdigit := digit_of_readNumber positive hread hzero
      obtain ⟨t, rfl, hst⟩ := h.of_cons (isLineMark_of_isDigit hdigit)
      obtain ⟨taken, u, v, -, rfl, huv, m, hm, hm'⟩ :=
        hst.takeDigits largestNatural (digitValue c)
      rw [readNumber_digit positive hzero hdigit] at hread ⊢
      rw [hm] at hread
      rw [hm']
      obtain ⟨w, hw, hrest, hlength⟩ := readLong_follows positive m huv hread
      refine ⟨w, hw, hrest, ?_⟩
      rw [List.length_cons, List.length_append]
      omega

end Json
end SchemaScript
