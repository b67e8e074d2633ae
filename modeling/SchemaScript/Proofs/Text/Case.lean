import Mathlib.Data.List.Basic
import SchemaScript.Text.Blank
import SchemaScript.Text.Case

/-!
# SchemaScript.Proofs.Text.Case

Letter case of ASCII texts, which changes character by character (`upperChars_eq_map`,
`lowerChars_eq_map`). All other characters stay as they are (`related_of_ascii`), so that case is of
no matter for what is blank. Texts are equal up to the case of their letters if they have the same
capital form (`equalAsciiCase_iff`).
-/

namespace SchemaScript
namespace Text

/-- A text of the first 128 characters. -/
def IsAscii (cs : List Char) : Prop :=
  ∀ c ∈ cs, c.toNat < 128

instance (cs : List Char) : Decidable (IsAscii cs) :=
  decidable_of_iff (cs.all (·.toNat < 128) = true) (by simp [IsAscii])

/-! ## Characters -/

/-- What each of the first 128 characters has, any ASCII character has. -/
theorem forall_ascii {p : Char → Prop} (h : ∀ n < 128, p (Char.ofNat n)) {c : Char}
    (hc : c.toNat < 128) : p c := by
  have hp := h c.toNat hc
  rwa [Char.ofNat_toNat] at hp

theorem toUpper_eq_self {c : Char} (hc : ¬ c.toNat < 128) : c.toUpper = c := by
  refine dif_neg fun hsmall => hc ?_
  have hz : c.val.toNat ≤ 122 := hsmall.2
  exact Nat.lt_of_le_of_lt hz (by decide)

theorem toLower_eq_self {c : Char} (hc : ¬ c.toNat < 128) : c.toLower = c := by
  refine dif_neg fun hcapital => hc ?_
  have hz : c.val.toNat ≤ 90 := hcapital.2
  exact Nat.lt_of_le_of_lt hz (by decide)

/-- A relation that is tested for the ASCII characters, where a map leaves all others alone. -/
theorem related_of_ascii {f : Char → Char} (hf : ∀ {c : Char}, ¬ c.toNat < 128 → f c = c)
    {r : Char → Char → Prop} (hascii : ∀ n < 128, r (Char.ofNat n) (f (Char.ofNat n)))
    (hself : ∀ c, r c c) (c : Char) : r c (f c) := by
  by_cases hc : c.toNat < 128
  · exact forall_ascii (p := fun c => r c (f c)) hascii hc
  · rw [hf hc]
    exact hself c

theorem isBlank_toUpper (c : Char) : isBlank c.toUpper = isBlank c :=
  related_of_ascii toUpper_eq_self (r := fun c d => isBlank d = isBlank c) (by decide)
    (fun _ => rfl) c

theorem isBlank_toLower (c : Char) : isBlank c.toLower = isBlank c :=
  related_of_ascii toLower_eq_self (r := fun c d => isBlank d = isBlank c) (by decide)
    (fun _ => rfl) c

theorem toUpper_toUpper (c : Char) : c.toUpper.toUpper = c.toUpper :=
  related_of_ascii toUpper_eq_self (r := fun c d => d.toUpper = c.toUpper) (by decide)
    (fun _ => rfl) c

theorem toLower_toUpper (c : Char) : c.toUpper.toLower = c.toLower :=
  related_of_ascii toUpper_eq_self (r := fun c d => d.toLower = c.toLower) (by decide)
    (fun _ => rfl) c

theorem toUpper_toLower (c : Char) : c.toLower.toUpper = c.toUpper :=
  related_of_ascii toLower_eq_self (r := fun c d => d.toUpper = c.toUpper) (by decide)
    (fun _ => rfl) c

theorem toNat_toUpper_lt {c : Char} : c.toUpper.toNat < 128 ↔ c.toNat < 128 :=
  related_of_ascii toUpper_eq_self (r := fun c d => d.toNat < 128 ↔ c.toNat < 128) (by decide)
    (fun _ => Iff.rfl) c

theorem toNat_toLower_lt {c : Char} : c.toLower.toNat < 128 ↔ c.toNat < 128 :=
  related_of_ascii toLower_eq_self (r := fun c d => d.toNat < 128 ↔ c.toNat < 128) (by decide)
    (fun _ => Iff.rfl) c

/-! ## Texts -/

variable {cs ds : List Char}

theorem any_isBlank_map_toUpper (o : Option Char) :
    (o.map Char.toUpper).any isBlank = o.any isBlank := by
  cases o with
  | none => rfl
  | some c => exact isBlank_toUpper c

theorem map_toUpper_toUpper (cs : List Char) :
    (cs.map Char.toUpper).map Char.toUpper = cs.map Char.toUpper := by
  rw [List.map_map]
  exact List.map_congr_left fun c _ => toUpper_toUpper c

theorem map_toLower_toUpper (cs : List Char) :
    (cs.map Char.toUpper).map Char.toLower = cs.map Char.toLower := by
  rw [List.map_map]
  exact List.map_congr_left fun c _ => toLower_toUpper c

/-- A map that leaves blanks blank does not change where white space is trimmed. -/
theorem trimEndChars_map {f : Char → Char} (hf : ∀ c, isBlank (f c) = isBlank c)
    (cs : List Char) : trimEndChars (cs.map f) = (trimEndChars cs).map f := by
  have hblank : isBlank ∘ f = isBlank := funext hf
  rw [trimEndChars, ← List.map_reverse, List.dropWhile_map, hblank, ← List.map_reverse,
    trimEndChars]

theorem trimChars_map {f : Char → Char} (hf : ∀ c, isBlank (f c) = isBlank c)
    (cs : List Char) : trimChars (cs.map f) = (trimChars cs).map f := by
  have hblank : isBlank ∘ f = isBlank := funext hf
  rw [trimChars, trimStartChars, List.dropWhile_map, hblank, trimEndChars_map hf, trimChars,
    trimStartChars]

theorem isAscii_append : IsAscii (cs ++ ds) ↔ IsAscii cs ∧ IsAscii ds :=
  List.forall_mem_append

theorem isAscii_map_toUpper : IsAscii (cs.map Char.toUpper) ↔ IsAscii cs := by
  simp only [IsAscii, List.forall_mem_map, toNat_toUpper_lt]

theorem isAscii_map_toLower : IsAscii (cs.map Char.toLower) ↔ IsAscii cs := by
  simp only [IsAscii, List.forall_mem_map, toNat_toLower_lt]

theorem upperChars_eq_map (h : IsAscii cs) : upperChars cs = cs.map Char.toUpper := by
  rw [upperChars, List.map_eq_flatMap]
  exact List.flatMap_congr fun c hc => if_pos (h c hc)

theorem lowerChars_eq_map (h : IsAscii cs) : lowerChars cs = cs.map Char.toLower := by
  rw [lowerChars, List.map_eq_flatMap]
  exact List.flatMap_congr fun c hc => if_pos (h c hc)

theorem lowerChars_append (cs ds : List Char) :
    lowerChars (cs ++ ds) = lowerChars cs ++ lowerChars ds :=
  List.flatMap_append

/-- Capitals have the small forms of the letters they belong to. -/
theorem lowerChars_upper {s : String} (h : IsAscii s.toList) :
    lowerChars (upper s).toList = lowerChars s.toList := by
  rw [upper, String.toList_ofList, upperChars_eq_map h,
    lowerChars_eq_map (isAscii_map_toUpper.mpr h), lowerChars_eq_map h, map_toLower_toUpper]

/-- Letter case is what the capital form of a text forgets. -/
theorem map_toLower_eq_iff :
    cs.map Char.toLower = ds.map Char.toLower ↔ cs.map Char.toUpper = ds.map Char.toUpper := by
  have hupper : Char.toUpper ∘ Char.toLower = Char.toUpper := funext toUpper_toLower
  have hlower : Char.toLower ∘ Char.toUpper = Char.toLower := funext toLower_toUpper
  constructor
  · intro h
    rw [← hupper, ← List.map_map, h, List.map_map]
  · intro h
    rw [← hlower, ← List.map_map, h, List.map_map]

/-- A word in capitals stands for all texts with its letters, which are ASCII texts as it is. -/
theorem equalAsciiCase_iff {s word : String} (hword : IsAscii word.toList)
    (hcapital : upper word = word) :
    equalAsciiCase s word = true ↔ IsAscii s.toList ∧ upper s = word := by
  have hupper (hs : IsAscii s.toList) : upper s = word ↔
      s.toList.map Char.toUpper = word.toList.map Char.toUpper := by
    rw [← upperChars_eq_map hs, ← upperChars_eq_map hword]
    conv_lhs => rw [← hcapital, upper, upper, String.ofList_inj]
  rw [equalAsciiCase, beq_iff_eq]
  constructor
  · intro h
    have hs : IsAscii s.toList := by
      rw [← isAscii_map_toLower, h, isAscii_map_toLower]
      exact hword
    exact ⟨hs, (hupper hs).mpr (map_toLower_eq_iff.mp h)⟩
  · rintro ⟨hs, h⟩
    exact map_toLower_eq_iff.mpr ((hupper hs).mp h)

theorem equalAsciiCase_trim {s t : String} (h : equalAsciiCase s t = true) :
    equalAsciiCase (trim s) (trim t) = true := by
  rw [equalAsciiCase, beq_iff_eq] at h ⊢
  rw [trim, trim, String.toList_ofList, String.toList_ofList, ← trimChars_map isBlank_toLower, h,
    trimChars_map isBlank_toLower]

end Text
end SchemaScript
