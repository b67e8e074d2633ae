import Mathlib.Data.List.Infix

/-!
# SchemaScript.Proofs.Text.Infix

Where a word can occur in a text that is put together from parts. No occurrence goes across the
start of a part that begins with a character of another kind (`infix_append_iff_or`), and there is
none in a part without characters of the word.
-/

namespace SchemaScript
namespace Text

variable {α : Type} {word cs ds : List α}

/-- A text without characters of the word does not make it occur. -/
theorem not_infix_of_disjoint (hword : word ≠ []) (h : ∀ c ∈ cs, c ∉ word) : ¬ word <:+: cs := by
  intro hoccurs
  obtain ⟨c, hc⟩ := List.exists_mem_of_ne_nil word hword
  exact h c (hoccurs.subset hc) hc

/-- No occurrence goes across the start of a text that begins with a character of another kind. -/
theorem infix_append_iff_or (h : ∀ c ∈ ds.head?, c ∉ word) :
    word <:+: cs ++ ds ↔ word <:+: cs ∨ word <:+: ds := by
  rw [List.infix_append_iff]
  constructor
  · rintro (hcs | hds | ⟨first, last, rfl, hfirst, hlast⟩)
    · exact .inl hcs
    · exact .inr hds
    · cases last with
      | nil =>
        rw [List.append_nil]
        exact .inl hfirst.isInfix
      | cons c last =>
        obtain ⟨rest, rfl⟩ := hlast
        exact absurd (by simp) (h c rfl)
  · rintro (hcs | hds)
    · exact .inl hcs
    · exact .inr (.inl hds)

theorem infix_append_right (hword : word ≠ []) (h : ∀ c ∈ ds, c ∉ word) :
    word <:+: cs ++ ds ↔ word <:+: cs := by
  rw [infix_append_iff_or fun c hc => h c (List.mem_of_mem_head? hc)]
  exact or_iff_left (not_infix_of_disjoint hword h)

theorem infix_append_left (hword : word ≠ []) (h : ∀ c ∈ cs, c ∉ word) :
    word <:+: cs ++ ds ↔ word <:+: ds := by
  induction cs with
  | nil => rfl
  | cons c cs ih =>
    rw [List.cons_append, List.infix_cons_iff, ih fun d hd => h d (List.mem_cons_of_mem c hd)]
    refine or_iff_right fun hstart => ?_
    cases word with
    | nil => exact hword rfl
    | cons d word =>
      obtain rfl := (List.cons_prefix_cons.mp hstart).1
      exact h d List.mem_cons_self List.mem_cons_self

end Text
end SchemaScript
