import SchemaScript.Proofs.Text.Case

/-!
# SchemaScript.Proofs.Text.LowerCase

Small letters of characters beyond ASCII. They are beyond ASCII themselves, but for two characters:
the small form of the Kelvin sign is `k`, and that of `İ` begins with `i` (`lowerChar_cases`). So a
text whose small form is an ASCII text without a `k` is an ASCII text (`lowerChars_eq_iff`).
-/

namespace SchemaScript
namespace Text

/-- The images of the run are characters beyond the first 128. -/
def CaseRun.StaysBeyond (r : CaseRun) : Prop :=
  128 ≤ r.target ∧ (r.target + (r.last - r.first) < 0xD800 ∨
    0xDFFF < r.target ∧ r.target + (r.last - r.first) < 0x110000)

instance (r : CaseRun) : Decidable r.StaysBeyond :=
  inferInstanceAs (Decidable (_ ∧ _))

theorem CaseRun.StaysBeyond.toNat_image {r : CaseRun} (h : r.StaysBeyond) {n : Nat}
    (hn : r.covers n = true) : ¬ (Char.ofNat (r.image n)).toNat < 128 := by
  obtain ⟨htarget, hvalid⟩ := h
  simp only [covers, Bool.and_eq_true, decide_eq_true_eq] at hn
  have himage : (r.image n).isValidChar := by
    rw [image, Nat.isValidChar]
    omega
  have hself : (Char.ofNat (r.image n)).toNat = r.image n := by
    rw [Char.ofNat, dif_pos himage]
    rfl
  rw [hself, image]
  omega

/-- All runs of small letters but that of the Kelvin sign. -/
theorem staysBeyond_lowerRuns : ∀ r ∈ lowerRuns,
    r.StaysBeyond ∨ r.first = 0x212A ∧ r.last = 0x212A ∧ r.target = 'k'.toNat := by
  decide +kernel

theorem lowerChar_cases {c : Char} (hc : ¬ c.toNat < 128) :
    (∃ d, ¬ d.toNat < 128 ∧ lowerChar c = [d]) ∨ (c = '\u212A' ∧ lowerChar c = ['k']) ∨
      (c = '\u0130' ∧ lowerChar c = ['i', '\u0307']) := by
  by_cases hkelvin : c = '\u212A'
  · subst hkelvin
    exact .inr (.inl ⟨rfl, by decide⟩)
  by_cases hdotted : c = '\u0130'
  · subst hdotted
    exact .inr (.inr ⟨rfl, by decide⟩)
  have hcode (n : Nat) (hn : c ≠ Char.ofNat n) : c.toNat ≠ n := by
    rintro rfl
    exact hn (Char.ofNat_toNat c).symm
  left
  rw [lowerChar, if_neg hc, mapLetter]
  cases hrun : lowerRuns.find? (·.covers c.toNat) with
  | some r =>
    have hcovers : r.covers c.toNat = true := by
      simpa using List.find?_some hrun
    have hbeyond := staysBeyond_lowerRuns r (List.mem_of_find?_eq_some hrun)
    have hother : ¬ (r.first = 0x212A ∧ r.last = 0x212A ∧ r.target = 'k'.toNat) := by
      rintro ⟨hfirst, hlast, -⟩
      simp only [CaseRun.covers, Bool.and_eq_true, decide_eq_true_eq] at hcovers
      exact hcode 0x212A hkelvin (by omega)
    exact ⟨_, (hbeyond.resolve_right hother).toNat_image hcovers, rfl⟩
  | none =>
    have hsingle : lowerSequences.lookup c.toNat = none := by
      rw [lowerSequences, List.lookup_cons, beq_false_of_ne (hcode 304 hdotted)]
      rfl
    rw [hsingle]
    exact ⟨c, hc, rfl⟩

/-- Of all characters beyond ASCII only the Kelvin sign has a small form in ASCII. -/
theorem isAscii_lowerChar {c : Char} (hc : ¬ c.toNat < 128) :
    IsAscii (lowerChar c) ↔ c = '\u212A' := by
  rcases lowerChar_cases hc with ⟨d, hd, hlower⟩ | ⟨rfl, hlower⟩ | ⟨rfl, hlower⟩
  · rw [hlower]
    refine iff_of_false (fun h => hd (h d (by simp))) ?_
    rintro rfl
    rw [show lowerChar '\u212A' = ['k'] by decide] at hlower
    obtain rfl := List.singleton_inj.mp hlower
    exact hd (by decide)
  · rw [hlower]
    exact iff_of_true (by decide) rfl
  · rw [hlower]
    exact iff_of_false (by decide) (by decide)

/-- A word without a `k` is the small form of the ASCII texts with its letters, and of no others. -/
theorem lowerChars_eq_iff {cs word : List Char} (hword : IsAscii word) (hk : 'k' ∉ word) :
    lowerChars cs = word ↔ IsAscii cs ∧ cs.map Char.toLower = word := by
  constructor
  · rintro rfl
    have hcs : IsAscii cs := by
      intro c hc
      by_contra hbeyond
      have hsub : ∀ d ∈ lowerChar c, d ∈ lowerChars cs :=
        fun d hd => List.mem_flatMap.mpr ⟨c, hc, hd⟩
      obtain rfl := (isAscii_lowerChar hbeyond).mp fun d hd => hword d (hsub d hd)
      exact hk (hsub 'k' (by decide))
    exact ⟨hcs, (lowerChars_eq_map hcs).symm⟩
  · rintro ⟨hcs, rfl⟩
    exact lowerChars_eq_map hcs

end Text
end SchemaScript
