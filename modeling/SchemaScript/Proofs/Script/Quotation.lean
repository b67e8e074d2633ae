import SchemaScript.Dialect.Profile

/-!
# SchemaScript.Proofs.Script.Quotation

A reader of quoted text from behind its opening quote. The text goes on to the first closing quote
that is not doubled, and doubled ones are read as one.

Reading undoes the doubling and nothing else (`readQuoted_eq_some_iff`): a text is read in front of
a rest exactly if it stands there with its closing quotes doubled, and no quote follows.
-/

namespace SchemaScript

/-- What stands in front of the closing quote, with doubled quotes read as one, and what follows. -/
def readQuoted (q : Char) : List Char → Option (List Char × List Char)
  | [] => none
  | c :: rest =>
    if c = q then
      match rest with
      | [] => some ([], [])
      | d :: rest' =>
        if d = q then (readQuoted q rest').map fun r => (q :: r.1, r.2)
        else some ([], d :: rest')
    else (readQuoted q rest).map fun r => (c :: r.1, r.2)

theorem readQuoted_other {q c : Char} (hc : c ≠ q) (rest : List Char) :
    readQuoted q (c :: rest) = (readQuoted q rest).map fun r => (c :: r.1, r.2) := by
  rw [readQuoted.eq_def]
  simp only [if_neg hc]

theorem readQuoted_doubled (q : Char) (rest : List Char) :
    readQuoted q (q :: q :: rest) = (readQuoted q rest).map fun r => (q :: r.1, r.2) := by
  simp [readQuoted]

theorem readQuoted_closing {q : Char} {rest : List Char} (h : rest.head? ≠ some q) :
    readQuoted q (q :: rest) = some ([], rest) := by
  cases rest with
  | nil => simp [readQuoted]
  | cons d rest =>
    have hd : d ≠ q := fun hd => h (by rw [hd]; rfl)
    simp [readQuoted, hd]

theorem readQuoted_double {q : Char} (text : List Char) {rest : List Char}
    (h : rest.head? ≠ some q) :
    readQuoted q (Profile.double q text ++ q :: rest) = some (text, rest) := by
  induction text with
  | nil => exact readQuoted_closing h
  | cons c text ih =>
    by_cases hc : c = q
    · subst hc
      rw [Profile.double_cons_self, List.cons_append, List.cons_append, readQuoted_doubled, ih]
      rfl
    · rw [Profile.double_cons_other hc, List.cons_append, readQuoted_other hc, ih]
      rfl

theorem eq_double_of_readQuoted {q : Char} {cs text rest : List Char}
    (h : readQuoted q cs = some (text, rest)) :
    cs = Profile.double q text ++ q :: rest ∧ rest.head? ≠ some q := by
  fun_induction readQuoted q cs generalizing text rest with
  | case1 => cases h
  | case2 =>
    cases h
    exact ⟨rfl, nofun⟩
  | case3 rest' ih =>
    obtain ⟨r, hr, hpair⟩ := Option.map_eq_some_iff.mp h
    cases hpair
    obtain ⟨hcs, hrest⟩ := ih hr
    exact ⟨by rw [Profile.double_cons_self, hcs]; rfl, hrest⟩
  | case4 d rest' hd =>
    cases h
    exact ⟨rfl, fun hhead => hd (Option.some.inj hhead)⟩
  | case5 c rest' hc ih =>
    obtain ⟨r, hr, hpair⟩ := Option.map_eq_some_iff.mp h
    cases hpair
    obtain ⟨hcs, hrest⟩ := ih hr
    exact ⟨by rw [Profile.double_cons_other hc, hcs]; rfl, hrest⟩

theorem readQuoted_eq_some_iff {q : Char} {cs text rest : List Char} :
    readQuoted q cs = some (text, rest) ↔
      cs = Profile.double q text ++ q :: rest ∧ rest.head? ≠ some q := by
  constructor
  · exact eq_double_of_readQuoted
  · rintro ⟨rfl, hrest⟩
    exact readQuoted_double text hrest

end SchemaScript
