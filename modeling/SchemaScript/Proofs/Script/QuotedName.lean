import SchemaScript.Proofs.Script.Identifier

/-!
# SchemaScript.Proofs.Script.QuotedName

Quoted names end where their reader sees them end, whatever follows, and are read as the dialect
stores them (`readIdentifier_quote`). What is put together from quoted names can therefore be taken
apart again: lists of names with commas between them (`readNames_intercalate`), and tables with a
column in brackets behind them (`readTarget_target`).

`quoted_names_read_back`: two names have one quoted form if and only if they are stored as one, and
the same is true of lists and of targets.
-/

namespace SchemaScript

/-- An identifier that the text starts with, and what follows it. -/
def readIdentifier (p : Profile) : List Char → Option (String × List Char)
  | [] => none
  | c :: cs =>
    if c = p.openQuote then (readQuoted p.closeQuote cs).map fun r => (String.ofList r.1, r.2)
    else none

theorem readIdentifier_eq_some {p : Profile} {cs rest : List Char} {name : String}
    (h : readIdentifier p cs = some (name, rest)) :
    cs = p.openQuote :: Profile.double p.closeQuote name.toList ++ p.closeQuote :: rest ∧
      rest.head? ≠ some p.closeQuote := by
  cases cs with
  | nil => cases h
  | cons c cs =>
    simp only [readIdentifier] at h
    split at h
    · rename_i hc
      obtain ⟨r, hr, hpair⟩ := Option.map_eq_some_iff.mp h
      cases hpair
      obtain ⟨hcs, hrest⟩ := readQuoted_eq_some_iff.mp hr
      exact ⟨by rw [hc, hcs, String.toList_ofList]; rfl, hrest⟩
    · cases h

theorem length_lt_of_readIdentifier {p : Profile} {cs rest : List Char} {name : String}
    (h : readIdentifier p cs = some (name, rest)) : rest.length < cs.length := by
  rw [(readIdentifier_eq_some h).1]
  simp only [List.length_append, List.length_cons]
  omega

/-- The identifiers with commas between them that the text starts with, as many as there are, and
what follows them. -/
def readNames (p : Profile) (cs : List Char) : List String × List Char :=
  match _hread : readIdentifier p cs with
  | none => ([], cs)
  | some (name, ',' :: ' ' :: rest) => (name :: (readNames p rest).1, (readNames p rest).2)
  | some (name, rest) => ([name], rest)
termination_by cs.length
decreasing_by
  all_goals
    have hlength := length_lt_of_readIdentifier _hread
    simp only [List.length_cons] at hlength
    omega

/-- An identifier with another one in brackets behind it, and what follows. -/
def readTarget (p : Profile) (cs : List Char) : Option ((String × String) × List Char) :=
  match readIdentifier p cs with
  | some (table, '(' :: inner) =>
    match readIdentifier p inner with
    | some (column, ')' :: rest) => some ((table, column), rest)
    | _ => none
  | _ => none

section Reading

variable {p : Profile}

/-- A quoted name is read up to its last character exactly if no further quote follows. -/
theorem readIdentifier_quote_iff (name : String) (rest : List Char) :
    readIdentifier p ((p.quote name).toList ++ rest) = some (p.fold name, rest) ↔
      rest.head? ≠ some p.closeQuote := by
  have hread : readIdentifier p ((p.quote name).toList ++ rest) =
      (readQuoted p.closeQuote (Profile.double p.closeQuote (p.fold name).toList ++
        p.closeQuote :: rest)).map fun r => (String.ofList r.1, r.2) := by
    simp [Profile.quote, readIdentifier]
  constructor
  · intro h
    exact (readIdentifier_eq_some h).2
  · intro h
    rw [hread, readQuoted_double _ h, Option.map_some, String.ofList_toList]

theorem readIdentifier_quote (name : String) {rest : List Char}
    (h : rest.head? ≠ some p.closeQuote) :
    readIdentifier p ((p.quote name).toList ++ rest) = some (p.fold name, rest) :=
  (readIdentifier_quote_iff name rest).mpr h

theorem readIdentifier_eq_none {rest : List Char} (h : rest.head? ≠ some p.openQuote) :
    readIdentifier p rest = none := by
  cases rest with
  | nil => rfl
  | cons c rest => exact if_neg fun hc => h (by rw [hc]; rfl)

theorem readNames_eq_nil {rest : List Char} (h : rest.head? ≠ some p.openQuote) :
    readNames p rest = ([], rest) := by
  rw [readNames.eq_def]
  split
  · rfl
  · rename_i hread
    rw [readIdentifier_eq_none h] at hread
    cases hread
  · rename_i hread
    rw [readIdentifier_eq_none h] at hread
    cases hread

theorem readNames_last {cs rest : List Char} {name : String}
    (hread : readIdentifier p cs = some (name, rest)) (h : rest.head? ≠ some ',') :
    readNames p cs = ([name], rest) := by
  rw [readNames.eq_def]
  split
  · rename_i hnone
    rw [hread] at hnone
    cases hnone
  · rename_i hcomma
    rw [hread] at hcomma
    cases hcomma
    exact absurd rfl h
  · rename_i hsome
    rw [hread] at hsome
    cases hsome
    rfl

theorem readNames_comma {cs rest : List Char} {name : String}
    (hread : readIdentifier p cs = some (name, ',' :: ' ' :: rest)) :
    readNames p cs = (name :: (readNames p rest).1, (readNames p rest).2) := by
  rw [readNames.eq_def p cs]
  split
  · rename_i hnone
    rw [hread] at hnone
    cases hnone
  · rename_i hcomma
    rw [hread] at hcomma
    cases hcomma
    rfl
  · rename_i hother hsome
    rw [hread] at hsome
    cases hsome
    exact absurd rfl (hother _)

/-- Neither a quotation nor a list of names goes on with the text. -/
def EndsNames (p : Profile) (rest : List Char) : Prop :=
  ∀ c ∈ rest.head?, c ∉ [p.openQuote, p.closeQuote, ',']

instance (p : Profile) : (rest : List Char) → Decidable (EndsNames p rest)
  | [] => isTrue nofun
  | c :: _ => decidable_of_iff (c ∉ [p.openQuote, p.closeQuote, ',']) (by simp [EndsNames])

theorem EndsNames.head?_ne {rest : List Char} (h : EndsNames p rest) {c : Char}
    (hc : c ∈ [p.openQuote, p.closeQuote, ',']) : rest.head? ≠ some c :=
  fun hhead => h c hhead hc

theorem readNames_intercalate (hp : p.IsReadable) (names : List String) {rest : List Char}
    (h : EndsNames p rest) :
    readNames p ((String.intercalate ", " (names.map p.quote)).toList ++ rest) =
      (names.map p.fold, rest) := by
  rw [String.toList_intercalate, List.map_map]
  induction names with
  | nil => exact readNames_eq_nil (h.head?_ne (by simp))
  | cons name names ih =>
    cases names with
    | nil =>
      have hread := readIdentifier_quote name (h.head?_ne (c := p.closeQuote) (by simp))
      simpa using readNames_last hread (h.head?_ne (by simp))
    | cons next names =>
      have hcomma : ',' ≠ p.closeQuote := ne_of_ordinary (by decide) hp.closeQuote_other.1
      let later := ", ".toList.intercalate ((next :: names).map (String.toList ∘ p.quote)) ++ rest
      have htext :
          ", ".toList.intercalate ((name :: next :: names).map (String.toList ∘ p.quote)) ++ rest =
            (p.quote name).toList ++ ',' :: ' ' :: later := by
        rw [List.map_cons, List.map_cons, List.intercalate_cons_cons, ← List.map_cons,
          List.append_assoc, List.append_assoc]
        rfl
      have hread : readIdentifier p ((p.quote name).toList ++ ',' :: ' ' :: later) =
          some (p.fold name, ',' :: ' ' :: later) :=
        readIdentifier_quote name fun hhead => hcomma (Option.some.inj hhead)
      rw [htext, readNames_comma hread, ih]
      rfl

theorem readTarget_target (hp : p.IsReadable) (table column : String) (rest : List Char) :
    readTarget p ((p.quote table ++ "(" ++ p.quote column ++ ")").toList ++ rest) =
      some ((p.fold table, p.fold column), rest) := by
  have hopening : '(' ≠ p.closeQuote := ne_of_ordinary (by decide) hp.closeQuote_other.1
  have hclosing : ')' ≠ p.closeQuote := ne_of_ordinary (by decide) hp.closeQuote_other.1
  have htext : (p.quote table ++ "(" ++ p.quote column ++ ")").toList ++ rest =
      (p.quote table).toList ++ '(' :: ((p.quote column).toList ++ ')' :: rest) := by
    simp
  have htable : readIdentifier p
      ((p.quote table).toList ++ '(' :: ((p.quote column).toList ++ ')' :: rest)) =
        some (p.fold table, '(' :: ((p.quote column).toList ++ ')' :: rest)) :=
    readIdentifier_quote table fun hhead => hopening (Option.some.inj hhead)
  have hcolumn : readIdentifier p ((p.quote column).toList ++ ')' :: rest) =
      some (p.fold column, ')' :: rest) :=
    readIdentifier_quote column fun hhead => hclosing (Option.some.inj hhead)
  simp only [htext, readTarget, htable, hcolumn]

/-! ## One text, one meaning -/

theorem quote_eq_iff (a b : String) : p.quote a = p.quote b ↔ p.fold a = p.fold b := by
  constructor
  · intro h
    have ha : readIdentifier p ((p.quote a).toList ++ []) = _ := readIdentifier_quote a nofun
    have hb : readIdentifier p ((p.quote b).toList ++ []) = _ := readIdentifier_quote b nofun
    rw [h, hb] at ha
    exact (Prod.mk.inj (Option.some.inj ha)).1.symm
  · intro h
    simp only [Profile.quote, h]

theorem names_eq_iff (hp : p.IsReadable) (names names' : List String) :
    String.intercalate ", " (names.map p.quote) = String.intercalate ", " (names'.map p.quote) ↔
      names.map p.fold = names'.map p.fold := by
  constructor
  · intro h
    have hends : EndsNames p [] := nofun
    have hnames := readNames_intercalate hp names hends
    have hnames' := readNames_intercalate hp names' hends
    rw [h, hnames'] at hnames
    exact (Prod.mk.inj hnames).1.symm
  · intro h
    let quoteStored (stored : String) : String :=
      String.ofList (p.openQuote :: Profile.double p.closeQuote stored.toList ++ [p.closeQuote])
    have hquote (ns : List String) : ns.map p.quote = (ns.map p.fold).map quoteStored := by
      rw [List.map_map]
      rfl
    rw [hquote, hquote, h]

theorem target_eq_iff (hp : p.IsReadable) (table column table' column' : String) :
    p.quote table ++ "(" ++ p.quote column ++ ")" =
        p.quote table' ++ "(" ++ p.quote column' ++ ")" ↔
      p.fold table = p.fold table' ∧ p.fold column = p.fold column' := by
  constructor
  · intro h
    have htarget := readTarget_target hp table column []
    have htarget' := readTarget_target hp table' column' []
    rw [h, htarget'] at htarget
    obtain ⟨hpair, -⟩ := Prod.mk.inj (Option.some.inj htarget)
    exact ⟨(Prod.mk.inj hpair).1.symm, (Prod.mk.inj hpair).2.symm⟩
  · rintro ⟨htable, hcolumn⟩
    rw [(quote_eq_iff table table').mpr htable, (quote_eq_iff column column').mpr hcolumn]

end Reading

/-- A quoted name is read to its end in front of any text that does not start with a closing quote,
and in front of no other. Names have one quoted form if and only if they are stored as one, which is
to be the same in all dialects but Oracle. Lists of quoted names, and quoted tables with a quoted
column in brackets, are read back too, and determine what is stored. -/
theorem quoted_names_read_back {p : Profile} (hp : p ∈ Profile.all) :
    (∀ (name : String) (rest : List Char),
      readIdentifier p ((p.quote name).toList ++ rest) = some (p.fold name, rest) ↔
        rest.head? ≠ some p.closeQuote) ∧
    (∀ a b : String, p.quote a = p.quote b ↔ p.fold a = p.fold b) ∧
    (p.dialect ≠ .oracle → ∀ a b : String, p.quote a = p.quote b ↔ a = b) ∧
    (∀ (names : List String) (rest : List Char), EndsNames p rest →
      readNames p ((String.intercalate ", " (names.map p.quote)).toList ++ rest) =
        (names.map p.fold, rest)) ∧
    (∀ names names' : List String,
      String.intercalate ", " (names.map p.quote) = String.intercalate ", " (names'.map p.quote) ↔
        names.map p.fold = names'.map p.fold) ∧
    (∀ (table column : String) (rest : List Char),
      readTarget p ((p.quote table ++ "(" ++ p.quote column ++ ")").toList ++ rest) =
        some ((p.fold table, p.fold column), rest)) ∧
    ∀ table column table' column' : String,
      p.quote table ++ "(" ++ p.quote column ++ ")" =
          p.quote table' ++ "(" ++ p.quote column' ++ ")" ↔
        p.fold table = p.fold table' ∧ p.fold column = p.fold column' := by
  have hread := isReadable_of_mem hp
  refine ⟨readIdentifier_quote_iff, quote_eq_iff, ?_,
    fun names rest h => readNames_intercalate hread names h, names_eq_iff hread,
    readTarget_target hread, target_eq_iff hread⟩
  intro ho a b
  rw [quote_eq_iff, Profile.fold_eq hp, Profile.fold_eq hp, if_neg ho, if_neg ho]

/-- Closing quotes at both ends of a name, and a name that looks like two quoted ones. -/
theorem quoted_names_read_back_brackets :
    let p := Profile.sqlServer
    p ∈ Profile.all ∧ p.dialect ≠ .oracle ∧ EndsNames p [')'] ∧
    readIdentifier p ((p.quote "]a]").toList ++ [')']) = some ("]a]", [')']) ∧
    p.quote "a]" ≠ p.quote "a]]" ∧
    readNames p ((String.intercalate ", " (["a], [b", "]"].map p.quote)).toList ++ [')']) =
      (["a], [b", "]"], [')']) ∧
    String.intercalate ", " (["a], [b"].map p.quote) ≠
      String.intercalate ", " (["a", "b"].map p.quote) ∧
    readTarget p ((p.quote "a](b" ++ "(" ++ p.quote "]" ++ ")").toList ++ ['"']) =
      some (("a](b", "]"), ['"']) := by
  intro p
  have hp : p ∈ Profile.all := by decide
  have hends : EndsNames p [')'] := by decide
  obtain ⟨hname, -, hplain, hnames, hlists, htarget, -⟩ := quoted_names_read_back hp
  refine ⟨hp, by decide, hends, (hname "]a]" [')']).mpr (by decide), ?_, hnames _ _ hends, ?_,
    htarget _ _ _⟩
  · exact mt (hplain (by decide) "a]" "a]]").mp (by decide)
  · exact mt (hlists ["a], [b"] ["a", "b"]).mp (by decide)

end SchemaScript
