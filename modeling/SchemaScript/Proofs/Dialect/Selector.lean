import SchemaScript.Proofs.Export.Outcome
import SchemaScript.Proofs.Text.LowerCase
import SchemaScript.Proofs.Text.Trim

/-!
# SchemaScript.Proofs.Dialect.Selector

Selectors of dialects. They are compared in small letters, with the full mapping, but none of their
names has a letter that another one than those of ASCII goes to. So a selector is accepted if it has
the letters of a name, in any case, and white space around them at most (`parse?_eq_some`), and for
all others the export fails before it looks at the tables (`selectors_exact`).
-/

namespace SchemaScript
namespace Dialect

/-- The selector is spelled as the name, in any case, with white space around it at most. -/
def Spells (selector name : String) : Prop :=
  Text.equalAsciiCase (Text.trim selector) name = true

instance (selector name : String) : Decidable (Spells selector name) :=
  inferInstanceAs (Decidable (_ = true))

/-! ## Names -/

/-- Names are in small letters of ASCII, and there is no `k` in them. -/
theorem aliases_plain {d : Dialect} : ∀ name ∈ d.aliases,
    Text.IsAscii name.toList ∧ 'k' ∉ name.toList ∧ name.toList.map Char.toLower = name.toList := by
  cases d <;> decide +kernel

/-- No name is a name of two dialects. -/
theorem eq_of_mem_aliases {d d' : Dialect} : ∀ name ∈ d.aliases, name ∈ d'.aliases → d = d' := by
  cases d <;> cases d' <;> decide

theorem mem_all (d : Dialect) : d ∈ all := by
  cases d <;> decide

theorem spells_iff {d : Dialect} {selector name : String} (hname : name ∈ d.aliases) :
    Spells selector name ↔ (Text.trim selector).toList.map Char.toLower = name.toList := by
  obtain ⟨-, -, hsmall⟩ := aliases_plain name hname
  rw [Spells, Text.equalAsciiCase, beq_iff_eq, hsmall]

theorem isAscii_of_spells {d : Dialect} {selector name : String} (hname : name ∈ d.aliases)
    (h : Spells selector name) : Text.IsAscii (Text.trim selector).toList := by
  obtain ⟨hascii, -, -⟩ := aliases_plain name hname
  rw [← Text.isAscii_map_toLower, (spells_iff hname).mp h]
  exact hascii

theorem lower_trim_eq_iff {d : Dialect} {selector name : String} (hname : name ∈ d.aliases) :
    Text.lower (Text.trim selector) = name ↔ Spells selector name := by
  obtain ⟨hascii, hk, -⟩ := aliases_plain name hname
  rw [← String.toList_inj, Text.lower, String.toList_ofList, Text.lowerChars_eq_iff hascii hk,
    ← spells_iff hname]
  exact and_iff_right_of_imp (isAscii_of_spells hname)

/-! ## Selectors -/

theorem contains_aliases_iff {d : Dialect} {selector : String} :
    d.aliases.contains (Text.lower (Text.trim selector)) = true ↔
      ∃ name ∈ d.aliases, Spells selector name := by
  rw [List.contains_iff_mem]
  constructor
  · intro h
    exact ⟨_, h, (lower_trim_eq_iff h).mp rfl⟩
  · rintro ⟨name, hname, hspells⟩
    rw [(lower_trim_eq_iff hname).mpr hspells]
    exact hname

theorem parse?_eq_some {d : Dialect} {selector : String} :
    parse? selector = some d ↔ ∃ name ∈ d.aliases, Spells selector name := by
  rw [← contains_aliases_iff, parse?]
  constructor
  · intro h
    simpa using List.find?_some h
  · intro h
    have hfound : ∃ d', all.find? (fun d => d.aliases.contains (Text.lower (Text.trim selector))) =
        some d' := by
      rw [← Option.isSome_iff_exists, List.find?_isSome]
      exact ⟨d, mem_all d, h⟩
    obtain ⟨d', hd'⟩ := hfound
    have hcontains : d'.aliases.contains (Text.lower (Text.trim selector)) = true := by
      simpa using List.find?_some hd'
    rw [List.contains_iff_mem] at h hcontains
    rw [hd', eq_of_mem_aliases _ h hcontains]

/-- Neither the case of letters nor white space around them matters. -/
theorem parse?_respelled {before after selector selector' : String}
    (hbefore : Text.allBlank before = true) (hafter : Text.allBlank after = true)
    (h : Text.equalAsciiCase selector' selector = true) :
    parse? (before ++ selector' ++ after) = parse? selector := by
  have hcase := Text.equalAsciiCase_trim h
  rw [Text.equalAsciiCase, beq_iff_eq] at hcase
  refine Option.ext fun d => ?_
  simp only [parse?_eq_some, Spells, Text.trim_surrounded hbefore hafter, Text.equalAsciiCase,
    hcase]

theorem parse?_eq_none_of_not_isAscii {selector : String}
    (h : ¬ Text.IsAscii (Text.trim selector).toList) : parse? selector = none := by
  rw [Option.eq_none_iff_forall_ne_some]
  intro d hd
  obtain ⟨name, hname, hspells⟩ := parse?_eq_some.mp hd
  exact h (isAscii_of_spells hname hspells)

/-- Selectors are matched up to the case of ASCII letters and white space around them, and no more.
A selector denotes a dialect if and only if it spells one of its names; none does that has another
character inside, though the small form of one such letter is a letter of ASCII. All spellings of a
selector denote the same. An export tells of a selector that denotes no dialect, by that selector as
it was given, whatever the tables are, and in no other case. -/
theorem selectors_exact (selector : String) :
    (∀ d, parse? selector = some d ↔ ∃ name ∈ d.aliases, Spells selector name) ∧
    (¬ Text.IsAscii (Text.trim selector).toList → parse? selector = none) ∧
    (∀ c : Char, ¬ c.toNat < 128 → (Text.IsAscii (Text.lowerChar c) ↔ c = '\u212A')) ∧
    (∀ before selector' after : String, Text.allBlank before = true → Text.allBlank after = true →
      Text.equalAsciiCase selector' selector = true →
      parse? (before ++ selector' ++ after) = parse? selector) ∧
    ∀ (o : ExportOptions) (tables : List Table) (date : Date),
      ((∃ given, (o.exportTo tables selector date).result = .error (.unsupportedDialect given)) ↔
        (parse? selector).isSome = false) ∧
      ((parse? selector).isSome = false →
        o.exportTo tables selector date = ⟨.error (.unsupportedDialect selector), []⟩) := by
  refine ⟨fun d => parse?_eq_some, parse?_eq_none_of_not_isAscii,
    fun c => Text.isAscii_lowerChar, fun before selector' after => parse?_respelled,
    fun o tables date => ?_⟩
  rw [Option.isSome_eq_false_iff, Option.isNone_iff_eq_none]
  refine ⟨⟨?_, fun h => ?_⟩, ExportOptions.exportTo_unknown⟩
  · rintro ⟨given, hgiven⟩
    cases hd : parse? selector with
    | none => rfl
    | some d =>
      rw [ExportOptions.exportTo_known hd] at hgiven
      obtain h | h | ⟨_, _, _, h⟩ := ExportOptions.error_of_exportOn hgiven
      · cases h
      · cases h
      · cases h
  · rw [ExportOptions.exportTo_unknown h]
    exact ⟨selector, rfl⟩

theorem selectors_exact_spellings :
    let spelled := "\u3000" ++ "Sql Server" ++ "\n"
    let dotted := " sql\u0130te "
    Text.equalAsciiCase "Sql Server" "SQL SERVER" = true ∧
    parse? spelled = parse? "SQL SERVER" ∧ parse? spelled = some .sqlServer ∧
    ¬ Text.IsAscii (Text.trim dotted).toList ∧ Text.lower "\u212A" = "k" ∧
    parse? dotted = none ∧
    ExportOptions.standard.exportTo [] dotted ⟨2024, 5, 6⟩ =
      ⟨.error (.unsupportedDialect dotted), []⟩ := by
  intro spelled dotted
  obtain ⟨hspells, -, -, hrespelled, -⟩ := selectors_exact "SQL SERVER"
  obtain ⟨-, hforeign, -, -, hexport⟩ := selectors_exact dotted
  have hcase : Text.equalAsciiCase "Sql Server" "SQL SERVER" = true := by decide
  have hsame : parse? spelled = parse? "SQL SERVER" :=
    hrespelled _ _ _ (by decide) (by decide) hcase
  have hknown : parse? "SQL SERVER" = some .sqlServer :=
    (hspells _).mpr ⟨"sql server", by decide, by decide +kernel⟩
  have hdotted : ¬ Text.IsAscii (Text.trim dotted).toList := by decide +kernel
  have hnone := hforeign hdotted
  obtain ⟨-, hunsupported⟩ := hexport .standard [] ⟨2024, 5, 6⟩
  exact ⟨hcase, hsame, hsame.trans hknown, hdotted, by decide +kernel, hnone,
    hunsupported (by rw [hnone]; rfl)⟩

end Dialect
end SchemaScript
