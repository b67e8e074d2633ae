import SchemaScript.Json.Reader
import SchemaScript.Proofs.Json.LexemeEnd

/-!
# SchemaScript.Proofs.Json.ValueEnd

Where values end. Behind an item of an array there is a comma or a bracket, so a number ends there
too, and the array ends with its bracket; likewise for objects. So values other than numbers are
read in the same way whatever is put behind them, and with a larger depth (`readValue_append`).
-/

namespace SchemaScript
namespace Json

variable {α : Type}

/-! ## Containers -/

/-- Behind blanks, and behind a comma unless it is the first, comes an entry of a container. -/
def EntryAt (first : Bool) (s start : List Char) : Prop :=
  if first then skipSpace s = start else ∃ u, skipSpace s = ',' :: u ∧ skipSpace u = start

theorem EntryAt.append {first : Bool} {s start : List Char} (h : EntryAt first s start)
    (hstart : start ≠ []) (tail : List Char) : EntryAt first (s ++ tail) (start ++ tail) := by
  obtain ⟨c, start, rfl⟩ := List.exists_cons_of_ne_nil hstart
  cases first with
  | true => exact skipSpace_append_of_eq h tail
  | false =>
    obtain ⟨u, hcomma, hentry⟩ := h
    exact ⟨u ++ tail, skipSpace_append_of_eq hcomma tail, skipSpace_append_of_eq hentry tail⟩

theorem nextItem_of_closing (first : Bool) {s rest : List Char} (h : skipSpace s = ']' :: rest) :
    nextItem first s = .ok (none, rest) := by
  unfold nextItem
  rw [h]
  rfl

theorem nextItem_of_entryAt {first : Bool} {s more : List Char} {c : Char} (hc : c ≠ ']')
    (h : EntryAt first s (c :: more)) : nextItem first s = .ok (some (c :: more), []) := by
  unfold nextItem
  cases first with
  | true =>
    rw [show skipSpace s = c :: more from h]
    simp
  | false =>
    obtain ⟨u, hcomma, hitem⟩ := h
    rw [hcomma]
    simp [hitem, hc]

theorem nextItem_cases {first : Bool} {s rest : List Char} {start? : Option (List Char)}
    (h : nextItem first s = .ok (start?, rest)) :
    (start? = none ∧ skipSpace s = ']' :: rest) ∨
      ∃ c more, start? = some (c :: more) ∧ c ≠ ']' ∧ EntryAt first s (c :: more) := by
  unfold nextItem at h
  split at h
  · cases h
  · rename_i hspace
    cases h
    exact .inl ⟨rfl, hspace⟩
  · rename_i c more hclosing hspace
    refine .inr ?_
    split at h
    · rename_i hfirst
      cases h
      exact ⟨c, more, rfl, hclosing, by rw [EntryAt, if_pos hfirst, hspace]⟩
    rename_i hfirst
    split at h
    · rename_i hcomma
      subst hcomma
      split at h
      · cases h
      · cases h
      · rename_i hnone hnext
        cases h
        obtain ⟨d, u, hu⟩ := List.exists_cons_of_ne_nil hnone
        refine ⟨d, u, by rw [hu], fun hd => hnext u (by rw [hu, hd]), ?_⟩
        rw [EntryAt, if_neg hfirst]
        exact ⟨more, hspace, hu⟩
    · cases h

theorem nextItem_append {first : Bool} {s rest : List Char} {start? : Option (List Char)}
    (h : nextItem first s = .ok (start?, rest)) (tail : List Char) :
    (start? = none ∧ nextItem first (s ++ tail) = .ok (none, rest ++ tail)) ∨
      ∃ start, start? = some start ∧
        nextItem first (s ++ tail) = .ok (some (start ++ tail), []) := by
  rcases nextItem_cases h with ⟨hnone, hclosing⟩ | ⟨c, more, hsome, hc, hentry⟩
  · exact .inl ⟨hnone, nextItem_of_closing first (skipSpace_append_of_eq hclosing tail)⟩
  · exact .inr ⟨_, hsome, nextItem_of_entryAt hc (hentry.append (by simp) tail)⟩

theorem ne_nil_of_readItems {item : Reader α} {steps : Nat} {first : Bool} {s rest : List Char}
    {items : List α} (h : readItems item steps first s = .ok (items, rest)) : s ≠ [] := by
  rintro rfl
  cases steps <;> cases h

theorem readItems_closes {item item' : Reader α} (hitem : Carries item item') {steps steps' : Nat}
    (hsteps : steps ≤ steps') (first : Bool) :
    Closes (readItems item steps first) (readItems item' steps' first) := by
  induction steps generalizing steps' first with
  | zero =>
    intro s items rest h
    cases h
  | succ steps ih =>
    intro s items rest h tail
    obtain ⟨steps', rfl⟩ : ∃ n, steps' = n + 1 := ⟨steps' - 1, by omega⟩
    have hnext := ih (Nat.le_of_succ_le_succ hsteps) false
    rw [readItems] at h
    cases hentry : nextItem first s with
    | error f =>
      rw [hentry] at h
      cases h
    | ok entry =>
      obtain ⟨start?, left⟩ := entry
      rw [hentry] at h
      rcases nextItem_append hentry tail with ⟨rfl, happend⟩ | ⟨start, rfl, happend⟩
      · cases h
        rw [readItems, happend]
      · simp only at h
        split at h
        · cases h
        rename_i v left' hv
        split at h
        · cases h
        rename_i vs left'' hvs
        cases h
        simp only [readItems, happend, hitem hv (ne_nil_of_readItems hvs) tail, hnext hvs tail]

theorem readColon_closes : Closes readColon readColon := by
  intro s a rest h tail
  unfold readColon at h
  split at h
  · cases h
  · rename_i hcolon
    cases h
    unfold readColon
    rw [skipSpace_append_of_eq hcolon]
    rfl
  · cases h

theorem nextName_of_closing (first : Bool) {s rest : List Char}
    (h : skipSpace s = '\x7d' :: rest) : nextName first s = .ok (none, rest) := by
  unfold nextName
  rw [h]
  rfl

theorem nextName_of_entryAt {first : Bool} {s start : List Char}
    (h : EntryAt first s ('"' :: start)) : nextName first s = .ok (some start, []) := by
  unfold nextName
  cases first with
  | true =>
    rw [show skipSpace s = '"' :: start from h]
    rfl
  | false =>
    obtain ⟨u, hcomma, hname⟩ := h
    rw [hcomma]
    simp [hname]

theorem nextName_cases {first : Bool} {s rest : List Char} {start? : Option (List Char)}
    (h : nextName first s = .ok (start?, rest)) :
    (start? = none ∧ skipSpace s = '\x7d' :: rest) ∨
      ∃ start, start? = some start ∧ EntryAt first s ('"' :: start) := by
  unfold nextName at h
  split at h
  · cases h
  · rename_i hspace
    cases h
    exact .inl ⟨rfl, hspace⟩
  · rename_i c more hclosing hspace
    refine .inr ?_
    split at h
    · rename_i hfirst
      split at h
      · rename_i hquote
        cases h
        exact ⟨more, rfl, by rw [EntryAt, if_pos hfirst, hspace, hquote]⟩
      · cases h
    rename_i hfirst
    split at h
    · rename_i hcomma
      subst hcomma
      split at h
      · cases h
      · rename_i hname
        cases h
        refine ⟨_, rfl, ?_⟩
        rw [EntryAt, if_neg hfirst]
        exact ⟨more, hspace, hname⟩
      · cases h
      · cases h
    · cases h

theorem nextName_append {first : Bool} {s rest : List Char} {start? : Option (List Char)}
    (h : nextName first s = .ok (start?, rest)) (tail : List Char) :
    (start? = none ∧ nextName first (s ++ tail) = .ok (none, rest ++ tail)) ∨
      ∃ start, start? = some start ∧
        nextName first (s ++ tail) = .ok (some (start ++ tail), []) := by
  rcases nextName_cases h with ⟨hnone, hclosing⟩ | ⟨start, hsome, hentry⟩
  · exact .inl ⟨hnone, nextName_of_closing first (skipSpace_append_of_eq hclosing tail)⟩
  · exact .inr ⟨_, hsome, nextName_of_entryAt (hentry.append (by simp) tail)⟩

theorem ne_nil_of_readMembers {σ : Type} {member : σ → String → Reader σ} {steps : Nat}
    {first : Bool} {state state' : σ} {s rest : List Char}
    (h : readMembers member steps first state s = .ok (state', rest)) : s ≠ [] := by
  rintro rfl
  cases steps <;> cases h

theorem readMembers_closes {σ : Type} {member member' : σ → String → Reader σ}
    (hmember : ∀ state name, Carries (member state name) (member' state name))
    {steps steps' : Nat} (hsteps : steps ≤ steps') (first : Bool) (state : σ) :
    Closes (readMembers member steps first state) (readMembers member' steps' first state) := by
  induction steps generalizing steps' first state with
  | zero =>
    intro s members rest h
    cases h
  | succ steps ih =>
    intro s members rest h tail
    obtain ⟨steps', rfl⟩ : ∃ n, steps' = n + 1 := ⟨steps' - 1, by omega⟩
    rw [readMembers] at h
    cases hentry : nextName first s with
    | error f =>
      rw [hentry] at h
      cases h
    | ok entry =>
      obtain ⟨start?, left⟩ := entry
      rw [hentry] at h
      rcases nextName_append hentry tail with ⟨rfl, happend⟩ | ⟨start, rfl, happend⟩
      · cases h
        rw [readMembers, happend]
      · simp only at h
        split at h
        · cases h
        rename_i name left' hname
        split at h
        · cases h
        rename_i state' left'' hstate
        have hnext := ih (Nat.le_of_succ_le_succ hsteps) false state' h tail
        simp only [readMembers, happend, readString_closes hname tail,
          hmember _ _ hstate (ne_nil_of_readMembers h) tail, hnext]

/-! ## Values -/

theorem readMember_carries {value value' : Reader Value} (hvalue : Carries value value')
    (members : List (String × Value)) (name : String) :
    Carries (readMember value members name) (readMember value' members name) := by
  intro s ms rest h hrest tail
  rw [readMember] at h
  split at h
  · cases h
  rename_i hcolon
  split at h
  · cases h
  rename_i hv
  cases h
  simp only [readMember, readColon_closes hcolon tail, hvalue hv hrest tail]

/-- Readers for what is nested. -/
def CarriesNested (nested nested' : Option (Reader Value)) : Prop :=
  ∀ value, nested = some value → ∃ value', nested' = some value' ∧ Carries value value'

/-- Only numbers need something behind them to end. -/
theorem readValueBy_append {nested nested' : Option (Reader Value)}
    (hnested : CarriesNested nested nested') {s rest : List Char} {v : Value}
    (h : readValueBy nested s = .ok (v, rest)) (hend : rest ≠ [] ∨ ∀ n, v ≠ .number n)
    (tail : List Char) : readValueBy nested' (s ++ tail) = .ok (v, rest ++ tail) := by
  unfold readValueBy at h
  rw [readValueBy]
  -- By the first character of the value, in the order in which the reader asks for it.
  split at h
  case h_1 => cases h
  case h_2 hspace | h_3 hspace | h_4 hspace =>
    split at h
    · cases h
    rename_i hword
    cases h
    rw [skipSpace_append_of_eq hspace]
    simp only [readWord_closes _ hword tail]
  case h_5 hspace =>
    split at h
    · cases h
    rename_i hstring
    cases h
    rw [skipSpace_append_of_eq hspace]
    simp only [readString_closes hstring tail]
  case h_6 hspace =>
    split at h
    · cases h
    rename_i hnumber
    cases h
    have hrest := hend.resolve_right fun hne => hne _ rfl
    rw [skipSpace_append_of_eq hspace]
    simp only [readNumber_carries false hnumber hrest tail]
  case h_7 more hspace =>
    split at h
    · cases h
    rename_i value
    obtain ⟨value', rfl, hvalue⟩ := hnested value rfl
    split at h
    · cases h
    rename_i hitems
    cases h
    have hsteps : more.length + 1 ≤ (more ++ tail).length + 1 := by simp
    rw [skipSpace_append_of_eq hspace]
    simp only [readItems_closes hvalue hsteps true hitems tail]
  case h_8 more hspace =>
    split at h
    · cases h
    rename_i value
    obtain ⟨value', rfl, hvalue⟩ := hnested value rfl
    split at h
    · cases h
    rename_i hmembers
    cases h
    have hsteps : more.length + 1 ≤ (more ++ tail).length + 1 := by simp
    rw [skipSpace_append_of_eq hspace]
    simp only [readMembers_closes (readMember_carries hvalue) hsteps true [] hmembers tail]
  case h_9 hspace =>
    split at h
    · rename_i hdigit
      split at h
      · cases h
      rename_i hnumber
      cases h
      have hrest := hend.resolve_right fun hne => hne _ rfl
      have hread := readNumber_carries true hnumber hrest tail
      rw [List.cons_append] at hread
      rw [skipSpace_append_of_eq hspace]
      simp only [hdigit, if_true, hread]
    · cases h

theorem readValue_append {depth depth' : Nat} (hdepth : depth ≤ depth') {s rest : List Char}
    {v : Value} (h : readValue depth s = .ok (v, rest)) (hend : rest ≠ [] ∨ ∀ n, v ≠ .number n)
    (tail : List Char) : readValue depth' (s ++ tail) = .ok (v, rest ++ tail) := by
  induction depth generalizing depth' s v rest tail with
  | zero =>
    cases depth' <;> exact readValueBy_append (by rintro _ ⟨⟩) h hend tail
  | succ depth ih =>
    obtain ⟨depth', rfl⟩ : ∃ n, depth' = n + 1 := ⟨depth' - 1, by omega⟩
    refine readValueBy_append ?_ h hend tail
    rintro _ ⟨⟩
    exact ⟨_, rfl, fun s v rest hv hrest => ih (Nat.le_of_succ_le_succ hdepth) hv (.inl hrest)⟩

end Json
end SchemaScript
