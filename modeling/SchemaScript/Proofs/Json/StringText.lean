import SchemaScript.Json.Lexeme
import SchemaScript.Json.Printer

/-!
# SchemaScript.Proofs.Json.StringText

JSON strings give back the text that they were made from.

* `escapeChar_cases`: the three forms an escaped character can have. What reads strings is shown to
  be right by these forms and not by single characters.
* `of_escapeChars`: escaped text is made of plain characters and of pairs with a backslash.
* `readString_escapeChars`: from behind its opening quote, a string is read as its text, and what
  follows the closing quote is left.
-/

namespace SchemaScript
namespace Json

/-- The characters behind the backslash of an escape that has two characters. -/
def shortEscapes : List (Char × Char) :=
  [('"', '"'), ('\\', '\\'), ('b', '\x08'), ('f', '\x0c'), ('n', '\n'), ('r', '\r'), ('t', '\t')]

/-- The digits behind the `\u` of a control. -/
def controlDigits (n : Nat) : List Char :=
  ['0', '0', Text.hexDigit (n / 16), Text.hexDigit (n % 16)]

/-- A character has a short escape, or is a control with four digits, or stands for itself. -/
theorem escapeChar_cases (c : Char) :
    (∃ d, (d, c) ∈ shortEscapes ∧ escapeChar c = ['\\', d]) ∨
    (c.toNat < 32 ∧ escapeChar c = '\\' :: 'u' :: controlDigits c.toNat) ∨
    (32 ≤ c.toNat ∧ c ≠ '"' ∧ c ≠ '\\' ∧ escapeChar c = [c]) := by
  unfold escapeChar
  split
  · exact .inl ⟨'"', by decide, rfl⟩
  · exact .inl ⟨'\\', by decide, rfl⟩
  · exact .inl ⟨'b', by decide, rfl⟩
  · exact .inl ⟨'f', by decide, rfl⟩
  · exact .inl ⟨'n', by decide, rfl⟩
  · exact .inl ⟨'r', by decide, rfl⟩
  · exact .inl ⟨'t', by decide, rfl⟩
  · rename_i hquote hslash _ _ _ _ _
    split
    · rename_i hc
      exact .inr (.inl ⟨hc, rfl⟩)
    · rename_i hc
      exact .inr (.inr ⟨by omega, hquote, hslash, rfl⟩)

theorem controlDigits_plain {n : Nat} (hn : n < 32) :
    ∀ d ∈ controlDigits n, d ≠ '"' ∧ d ≠ '\\' ∧ 32 ≤ d.toNat := by
  have hall : ∀ n < 32, (controlDigits n).all
      (fun d => d ≠ '"' && d ≠ '\\' && 32 ≤ d.toNat) = true := by decide
  intro d hd
  have hplain := List.all_eq_true.mp (hall n hn) d hd
  simpa [and_assoc] using hplain

/-- What holds of plain characters and of backslashes with a character behind them, and passes to
appended texts, holds of escaped text. -/
theorem of_escapeChars {p : List Char → Prop} (hnil : p [])
    (happend : ∀ {cs ds}, p cs → p ds → p (cs ++ ds))
    (hplain : ∀ c, c ≠ '"' → c ≠ '\\' → 32 ≤ c.toNat → p [c])
    (hescape : ∀ c, 32 ≤ c.toNat → p ['\\', c]) (cs : List Char) : p (escapeChars cs) := by
  have hdigits (ds : List Char) (hds : ∀ d ∈ ds, d ≠ '"' ∧ d ≠ '\\' ∧ 32 ≤ d.toNat) : p ds := by
    induction ds with
    | nil => exact hnil
    | cons d ds ih =>
      obtain ⟨hquote, hslash, hd⟩ := hds d (by simp)
      exact happend (hplain d hquote hslash hd) (ih fun d hd => hds d (by simp [hd]))
  have hshort : ∀ e ∈ shortEscapes, 32 ≤ e.1.toNat := by decide
  have hchar (c : Char) : p (escapeChar c) := by
    rcases escapeChar_cases c with ⟨d, hd, hc⟩ | ⟨hlt, hc⟩ | ⟨hle, hquote, hslash, hc⟩
    · rw [hc]
      exact hescape d (hshort _ hd)
    · rw [hc]
      exact happend (hescape 'u' (by decide)) (hdigits _ (controlDigits_plain hlt))
    · rw [hc]
      exact hplain c hquote hslash hle
  induction cs with
  | nil => exact hnil
  | cons c cs ih => exact happend (hchar c) ih

/-- Escaped text has no controls. -/
theorem le_of_mem_escapeChars {cs : List Char} {d : Char} (h : d ∈ escapeChars cs) :
    32 ≤ d.toNat := by
  have hchars : ∀ d ∈ escapeChars cs, 32 ≤ d.toNat := by
    refine of_escapeChars (p := fun cs => ∀ d ∈ cs, 32 ≤ d.toNat) (by simp) ?_ ?_ ?_ cs
    · intro cs ds hcs hds d hd
      exact (List.mem_append.mp hd).elim (hcs d) (hds d)
    · intro c _ _ hc d hd
      rw [List.mem_singleton.mp hd]
      exact hc
    · intro c hc d hd
      simp only [List.mem_cons, List.not_mem_nil, or_false] at hd
      rcases hd with rfl | rfl
      · decide
      · exact hc
  exact hchars d h

theorem readEscape_short {c d : Char} (h : (d, c) ∈ shortEscapes) (rest : List Char) :
    readEscape (d :: rest) = .ok (c, rest) := by
  simp only [shortEscapes, List.mem_cons, Prod.mk.injEq, List.not_mem_nil, or_false] at h
  rcases h with ⟨rfl, rfl⟩ | ⟨rfl, rfl⟩ | ⟨rfl, rfl⟩ | ⟨rfl, rfl⟩ | ⟨rfl, rfl⟩ | ⟨rfl, rfl⟩ |
    ⟨rfl, rfl⟩ <;> rfl

theorem hexNumber?_controlDigits : ∀ n < 32, Text.hexNumber? (controlDigits n) = some n := by
  decide

theorem readEscape_control {c : Char} (hc : c.toNat < 32) (rest : List Char) :
    readEscape ('u' :: controlDigits c.toNat ++ rest) = .ok (c, rest) := by
  have hhex : readHex4 (controlDigits c.toNat ++ rest) = .ok (c.toNat, rest) := by
    have hnumber := hexNumber?_controlDigits c.toNat hc
    simp only [controlDigits] at hnumber
    simp only [controlDigits, List.cons_append, List.nil_append, readHex4, hnumber]
  have hlow : isLowSurrogate c.toNat = false := by
    simp only [isLowSurrogate, Bool.and_eq_false_iff, decide_eq_false_iff_not]
    omega
  have hhigh : isHighSurrogate c.toNat = false := by
    simp only [isHighSurrogate, Bool.and_eq_false_iff, decide_eq_false_iff_not]
    omega
  simp only [List.cons_append, readEscape, readCodeUnit, hhex, hlow, hhigh, Char.ofNat_toNat]
  rfl

/-- One step of the reader takes one escaped character. -/
theorem readStringChars_escapeChar (c : Char) (steps : Nat) (s : List Char) :
    readStringChars (steps + 1) (escapeChar c ++ s) =
      (readStringChars steps s).map fun r => (c :: r.1, r.2) := by
  rcases escapeChar_cases c with ⟨d, hd, he⟩ | ⟨hc, he⟩ | ⟨hc, hquote, hslash, he⟩
  · rw [he, List.cons_append, List.singleton_append, readStringChars, readEscape_short hd]
    cases hs : readStringChars steps s <;> simp only [hs] <;> rfl
  · rw [he, List.cons_append, readStringChars, readEscape_control hc]
    cases hs : readStringChars steps s <;> simp only [hs] <;> rfl
  · rw [he, List.singleton_append, readStringChars, if_neg (by omega)]
    · cases readStringChars steps s <;> rfl
    · exact hquote
    · exact hslash

theorem readStringChars_escapeChars (cs rest : List Char) :
    ∀ steps, cs.length < steps →
      readStringChars steps (escapeChars cs ++ '"' :: rest) = .ok (cs, rest) := by
  induction cs with
  | nil =>
    intro steps hsteps
    cases steps with
    | zero => omega
    | succ steps => rfl
  | cons c cs ih =>
    intro steps hsteps
    simp only [List.length_cons] at hsteps
    cases steps with
    | zero => omega
    | succ steps =>
      have htail : readStringChars steps (escapeChars cs ++ '"' :: rest) = .ok (cs, rest) :=
        ih steps (by omega)
      have hcons : escapeChars (c :: cs) = escapeChar c ++ escapeChars cs := rfl
      rw [hcons, List.append_assoc, readStringChars_escapeChar, htail]
      rfl

theorem length_le_length_escapeChars (cs : List Char) : cs.length ≤ (escapeChars cs).length := by
  induction cs with
  | nil => simp
  | cons c cs ih =>
    have hcons : escapeChars (c :: cs) = escapeChar c ++ escapeChars cs := rfl
    have hc : 1 ≤ (escapeChar c).length := by
      rcases escapeChar_cases c with ⟨d, -, he⟩ | ⟨-, he⟩ | ⟨-, -, -, he⟩ <;> simp [he]
    simp only [hcons, List.length_append, List.length_cons]
    omega

/-- From behind its opening quote, a string is read as its text. -/
theorem readString_escapeChars (s : String) (rest : List Char) :
    readString (escapeChars s.toList ++ '"' :: rest) = .ok (s, rest) := by
  have hlength := length_le_length_escapeChars s.toList
  unfold readString
  rw [readStringChars_escapeChars]
  · simp
  · simp only [List.length_append, List.length_cons]
    omega

theorem toList_stringText (s : String) :
    (stringText s).toList = '"' :: escapeChars s.toList ++ ['"'] := by
  simp [stringText]

end Json
end SchemaScript
