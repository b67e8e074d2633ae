import SchemaScript.Proofs.Json.LexemeLayout
import SchemaScript.Proofs.Json.ReadBack

/-!
# SchemaScript.Proofs.Json.ValueLayout

Values in texts whose lines end and begin with other white space. Between the lexemes of a value any
white space is as good as any other.

* `read_relaid`: such texts have the same value, or none of them has one.
* `spelled_relays`: a text that is written for a value stays one of its texts, whatever stands
  behind it.
-/

namespace SchemaScript
namespace Json

variable {α : Type} {s t : List Char}

/-! ## Containers -/

theorem EntryAt.relaid {first : Bool} {c : Char} {u : List Char} (h : EntryAt first s (c :: u))
    (hst : Relaid s t) :
    ∃ v, EntryAt first t (c :: v) ∧ Relaid (c :: u) (c :: v) ∧ (c :: v).length ≤ t.length := by
  cases first with
  | true =>
    obtain ⟨v, hv, huv, hlength⟩ := hst.skipSpace_cons h
    exact ⟨v, hv, .same c huv, hlength⟩
  | false =>
    obtain ⟨w, hcomma, hentry⟩ := h
    obtain ⟨x, hx, hwx, hlength⟩ := hst.skipSpace_cons hcomma
    obtain ⟨v, hv, huv, hlength'⟩ := hwx.skipSpace_cons hentry
    exact ⟨v, ⟨x, hx, hv⟩, .same c huv, by rw [List.length_cons]; omega⟩

theorem readItems_follows {item item' : Reader α} (hitem : Follows 1 item item') {steps : Nat} :
    ∀ {steps' : Nat} {first : Bool} {s t : List Char}, Relaid s t → t.length < steps' →
      ∀ {items : List α} {rest : List Char}, readItems item steps first s = .ok (items, rest) →
        ∃ rest', readItems item' steps' first t = .ok (items, rest') ∧ Relaid rest rest' ∧
          rest'.length ≤ t.length := by
  induction steps with
  | zero =>
    intro steps' first s t _ _ items rest hread
    cases hread
  | succ steps ih =>
    intro steps' first s t h hsteps items rest hread
    obtain ⟨steps', rfl⟩ : ∃ n, steps' = n + 1 := ⟨steps' - 1, by omega⟩
    rw [readItems] at hread
    cases hnext : nextItem first s with
    | error f =>
      rw [hnext] at hread
      cases hread
    | ok next =>
      obtain ⟨start?, left⟩ := next
      rw [hnext] at hread
      rcases nextItem_cases hnext with ⟨rfl, hclosing⟩ | ⟨c, u, rfl, hc, hentry⟩
      · cases hread
        obtain ⟨v, hv, hrest, hlength⟩ := h.skipSpace_cons hclosing
        exact ⟨v, by rw [readItems, nextItem_of_closing first hv], hrest, by omega⟩
      · simp only at hread
        split at hread
        · cases hread
        rename_i a left' ha
        split at hread
        · cases hread
        rename_i as left'' has
        cases hread
        obtain ⟨v, hv, huv, hlength⟩ := hentry.relaid h
        obtain ⟨w, hw, hleft, hlength'⟩ := hitem huv ha
        obtain ⟨x, hx, hrest, hlength''⟩ := ih hleft (by omega : w.length < steps') has
        refine ⟨x, ?_, hrest, by omega⟩
        simp only [readItems, nextItem_of_entryAt hc hv, hw, hx]

theorem readColon_follows : Follows 1 readColon readColon := by
  intro s t h a rest hread
  unfold readColon at hread
  split at hread
  · cases hread
  · rename_i hcolon
    cases hread
    obtain ⟨u, hu, hrest, hlength⟩ := h.skipSpace_cons hcolon
    refine ⟨u, ?_, hrest, hlength⟩
    unfold readColon
    rw [hu]
    rfl
  · cases hread

theorem readMember_follows {value value' : Reader Value} (hvalue : Follows 1 value value')
    (members : List (String × Value)) (name : String) :
    Follows 1 (readMember value members name) (readMember value' members name) := by
  intro s t h ms rest hread
  rw [readMember] at hread
  split at hread
  · cases hread
  rename_i left hcolon
  split at hread
  · cases hread
  rename_i v left' hv
  cases hread
  obtain ⟨u, hu, hleft, hlength⟩ := readColon_follows h hcolon
  obtain ⟨w, hw, hrest, hlength'⟩ := hvalue hleft hv
  exact ⟨w, by simp only [readMember, hu, hw], hrest, by omega⟩

theorem readMembers_follows {σ : Type} {member member' : σ → String → Reader σ}
    (hmember : ∀ state name, Follows 1 (member state name) (member' state name)) {steps : Nat} :
    ∀ {steps' : Nat} {first : Bool} {state : σ} {s t : List Char}, Relaid s t →
      t.length < steps' → ∀ {state' : σ} {rest : List Char},
        readMembers member steps first state s = .ok (state', rest) →
          ∃ rest', readMembers member' steps' first state t = .ok (state', rest') ∧
            Relaid rest rest' ∧ rest'.length ≤ t.length := by
  induction steps with
  | zero =>
    intro steps' first state s t _ _ state' rest hread
    cases hread
  | succ steps ih =>
    intro steps' first state s t h hsteps state' rest hread
    obtain ⟨steps', rfl⟩ : ∃ n, steps' = n + 1 := ⟨steps' - 1, by omega⟩
    rw [readMembers] at hread
    cases hnext : nextName first s with
    | error f =>
      rw [hnext] at hread
      cases hread
    | ok next =>
      obtain ⟨start?, left⟩ := next
      rw [hnext] at hread
      rcases nextName_cases hnext with ⟨rfl, hclosing⟩ | ⟨u, rfl, hentry⟩
      · cases hread
        obtain ⟨v, hv, hrest, hlength⟩ := h.skipSpace_cons hclosing
        exact ⟨v, by rw [readMembers, nextName_of_closing first hv], hrest, by omega⟩
      · simp only at hread
        split at hread
        · cases hread
        rename_i name left' hname
        split at hread
        · cases hread
        rename_i state₁ left'' hstate
        obtain ⟨v, hv, huv, hlength⟩ := hentry.relaid h
        obtain ⟨w, rest', hw, hread', hleft, hlength'⟩ :=
          readString_follows.behind (by decide) huv hname
        cases hw
        obtain ⟨x, hx, hleft', hlength''⟩ := hmember _ _ hleft hstate
        obtain ⟨y, hy, hrest, hlength₃⟩ := ih hleft' (by omega : x.length < steps') hread
        refine ⟨y, ?_, hrest, by omega⟩
        simp only [readMembers, nextName_of_entryAt hv, hread', hx, hy]

/-! ## Values -/

/-- Readers for what is nested. -/
def FollowsNested (nested nested' : Option (Reader Value)) : Prop :=
  ∀ value, nested = some value → ∃ value', nested' = some value' ∧ Follows 1 value value'

theorem readValueBy_follows {nested nested' : Option (Reader Value)}
    (hnested : FollowsNested nested nested') :
    Follows 1 (readValueBy nested) (readValueBy nested') := by
  intro s t h v rest hread
  unfold readValueBy at hread
  unfold readValueBy
  -- By the first character of the value, in the order in which the reader asks for it.
  split at hread
  case h_1 => cases hread
  case h_2 hspace | h_3 hspace | h_4 hspace =>
    split at hread
    · cases hread
    rename_i hword
    cases hread
    obtain ⟨u, hu, hst, hlength⟩ := h.skipSpace_cons hspace
    obtain ⟨w, hw, hrest, hlength'⟩ := readWord_follows rfl hst hword
    refine ⟨w, ?_, hrest, by omega⟩
    rw [hu]
    simp only [hw]
  case h_5 hspace =>
    split at hread
    · cases hread
    rename_i hstring
    cases hread
    obtain ⟨u, hu, hst, hlength⟩ := h.skipSpace_cons hspace
    obtain ⟨w, hw, hrest, hlength'⟩ := readString_follows hst hstring
    refine ⟨w, ?_, hrest, by omega⟩
    rw [hu]
    simp only [hw]
  case h_6 hspace =>
    split at hread
    · cases hread
    rename_i hnumber
    cases hread
    obtain ⟨u, hu, hst, hlength⟩ := h.skipSpace_cons hspace
    obtain ⟨w, hw, hrest, hlength'⟩ := readNumber_follows false hst hnumber
    refine ⟨w, ?_, hrest, by omega⟩
    rw [hu]
    simp only [hw]
  case h_7 hspace =>
    split at hread
    · cases hread
    rename_i value
    obtain ⟨value', rfl, hvalue⟩ := hnested value rfl
    split at hread
    · cases hread
    rename_i hitems
    cases hread
    obtain ⟨u, hu, hst, hlength⟩ := h.skipSpace_cons hspace
    obtain ⟨w, hw, hrest, hlength'⟩ :=
      readItems_follows hvalue hst (Nat.lt_succ_self u.length) hitems
    refine ⟨w, ?_, hrest, by omega⟩
    rw [hu]
    simp only [hw]
  case h_8 hspace =>
    split at hread
    · cases hread
    rename_i value
    obtain ⟨value', rfl, hvalue⟩ := hnested value rfl
    split at hread
    · cases hread
    rename_i hmembers
    cases hread
    obtain ⟨u, hu, hst, hlength⟩ := h.skipSpace_cons hspace
    obtain ⟨w, hw, hrest, hlength'⟩ := readMembers_follows (readMember_follows hvalue) hst
      (Nat.lt_succ_self u.length) hmembers
    refine ⟨w, ?_, hrest, by omega⟩
    rw [hu]
    simp only [hw]
  case h_9 hspace =>
    split at hread
    · rename_i hdigit
      split at hread
      · cases hread
      rename_i hnumber
      cases hread
      obtain ⟨u, hu, hst, hlength⟩ := h.skipSpace_cons hspace
      obtain ⟨w, hw, hrest, hlength'⟩ := readNumber_follows true (.same _ hst) hnumber
      refine ⟨w, ?_, hrest, by rw [List.length_cons] at hlength'; omega⟩
      rw [hu]
      simp only [hdigit, if_true, hw]
    · cases hread

theorem readValue_follows (depth : Nat) : Follows 1 (readValue depth) (readValue depth) := by
  induction depth with
  | zero => exact readValueBy_follows (by rintro _ ⟨⟩)
  | succ depth ih =>
    refine readValueBy_follows ?_
    rintro _ ⟨⟩
    exact ⟨_, rfl, ih⟩

theorem read_ok_of_relaid {text text' : String} (h : Relaid text.toList text'.toList) {v : Value}
    (hread : read text = .ok v) : read text' = .ok v := by
  obtain ⟨rest, hvalue, hspace⟩ := read_eq_ok.mp hread
  obtain ⟨rest', hvalue', hrest, -⟩ := readValue_follows _ h hvalue
  exact read_eq_ok.mpr ⟨rest', hvalue', hrest.skipSpace_nil hspace⟩

/-- Texts that differ in the white space at the ends of their lines have the same value, if any. -/
theorem read_relaid {text text' : String} (h : Relaid text.toList text'.toList) (v : Value) :
    read text' = .ok v ↔ read text = .ok v :=
  ⟨read_ok_of_relaid h.symm, read_ok_of_relaid h⟩

/-! ## Texts of values -/

theorem isLineMark_of_not_isSpace {c : Char} (h : isSpace c = false) : isLineMark c = false := by
  cases hc : isLineMark c with
  | false => rfl
  | true => rw [isSpace_of_isLineMark hc] at h; cases h

/-- White space in front of something stays white space in front of it. -/
theorem Relaid.of_spaces {ws : List Char} (h : Relaid (ws ++ s) t) (hws : IsSpaces ws) {c : Char}
    {u : List Char} (hs : s = c :: u) (hc : isSpace c = false) :
    ∃ ws' v, t = ws' ++ v ∧ IsSpaces ws' ∧ Relaid s v := by
  have hskip : skipSpace (ws ++ s) = c :: u := by
    rw [skipSpace_append hws, hs, Json.skipSpace_cons hc]
  obtain ⟨v, hv, huv, -⟩ := h.skipSpace_cons hskip
  have hsplit := List.takeWhile_append_dropWhile (p := isSpace) (l := t)
  rw [← skipSpace, hv] at hsplit
  refine ⟨t.takeWhile isSpace, c :: v, hsplit.symm, fun d hd => ?_, hs ▸ .same c huv⟩
  exact List.all_eq_true.mp List.all_takeWhile d hd

/-- Where a text of `a` stands, another text of `a` stands in another layout. -/
def Relays (text : α → List Char → Prop) : Prop :=
  ∀ ⦃a : α⦄ ⦃cs rest t : List Char⦄, text a cs → Relaid (cs ++ rest) t →
    ∃ ds u, t = ds ++ u ∧ text a ds ∧ Relaid rest u

theorem Listed.relaid {text : α → List Char → Prop} (htext : Relays text)
    (hstarts : ∀ a cs, text a cs → StartsItem cs) {items : List α} {cs : List Char}
    (h : Listed text items cs) {c : Char} (hc : isSpace c = false) {rest : List Char} :
    ∀ {t}, Relaid (cs ++ c :: rest) t →
      ∃ ds u, t = ds ++ c :: u ∧ Listed text items ds ∧ Relaid rest u := by
  have hmark := isLineMark_of_not_isSpace hc
  induction h with
  | nil hws =>
    intro t ht
    obtain ⟨ws, v, rfl, hws', hv⟩ := ht.of_spaces hws rfl hc
    obtain ⟨u, rfl, hu⟩ := hv.of_cons hmark
    exact ⟨ws, u, rfl, .nil hws', hu⟩
  | @last a before cs after hbefore ha hafter =>
    intro t ht
    obtain ⟨d, ds, rfl, hd, -⟩ := hstarts a cs ha
    simp only [List.append_assoc] at ht
    obtain ⟨before', v, rfl, hbefore', hv⟩ := ht.of_spaces hbefore rfl hd
    obtain ⟨cs', w, rfl, ha', hw⟩ := htext ha hv
    obtain ⟨after', x, rfl, hafter', hx⟩ := hw.of_spaces hafter rfl hc
    obtain ⟨u, rfl, hu⟩ := hx.of_cons hmark
    exact ⟨_, u, by simp, .last hbefore' ha' hafter', hu⟩
  | @cons a b items before cs after ds hbefore ha hafter _ ih =>
    intro t ht
    obtain ⟨d, es, rfl, hd, -⟩ := hstarts a cs ha
    simp only [List.append_assoc, List.cons_append] at ht
    obtain ⟨before', v, rfl, hbefore', hv⟩ := ht.of_spaces hbefore rfl hd
    obtain ⟨cs', w, rfl, ha', hw⟩ := htext ha hv
    obtain ⟨after', x, rfl, hafter', hx⟩ := hw.of_spaces hafter rfl (by decide)
    obtain ⟨y, rfl, hy⟩ := hx.of_cons (by decide)
    obtain ⟨ds', u, rfl, hds', hu⟩ := ih hy
    exact ⟨_, u, by simp, .cons hbefore' ha' hafter' hds', hu⟩

/-- A string has no line ends. -/
theorem any_isLineMark_string (s : String) :
    ('"' :: (escapeChars s.toList ++ ['"'])).any isLineMark = false := by
  have hescaped : ∀ c ∈ escapeChars s.toList, ¬ isLineMark c = true := by
    intro c hc hmark
    have hle := le_of_mem_escapeChars hc
    rcases isLineMark_iff.mp hmark with rfl | rfl <;> exact absurd hle (by decide)
  rw [List.any_cons, List.any_append, List.any_eq_false.mpr hescaped]
  rfl

theorem SpelledMember.relays {text : Value → List Char → Prop} (htext : Relays text)
    (hstarts : ∀ v cs, text v cs → StartsItem cs) : Relays (SpelledMember text) := by
  rintro ⟨name, v⟩ _ rest t ⟨before, after, cs, hbefore, hafter, hv, rfl⟩ ht
  obtain ⟨c, cs, rfl, hc, -⟩ := hstarts v cs hv
  have hparts : Relaid (('"' :: (escapeChars name.toList ++ ['"'])) ++
      (before ++ ':' :: (after ++ (c :: cs ++ rest)))) t := by
    simpa using ht
  obtain ⟨w, rfl, hw⟩ := hparts.of_append _ (any_isLineMark_string name)
  obtain ⟨before', x, rfl, hbefore', hx⟩ := hw.of_spaces hbefore rfl (by decide)
  obtain ⟨y, rfl, hy⟩ := hx.of_cons (by decide)
  obtain ⟨after', z, rfl, hafter', hz⟩ := hy.of_spaces hafter rfl hc
  obtain ⟨ds, u, rfl, hds, hu⟩ := htext hv hz
  exact ⟨_, u, by simp, ⟨before', after', ds, hbefore', hafter', hds, rfl⟩, hu⟩

theorem SpelledBy.relays {nested : Option (Value → List Char → Prop)}
    (hnested : ∀ text ∈ nested, Relays text ∧ ∀ v cs, text v cs → StartsItem cs) :
    Relays (SpelledBy nested) := by
  intro v cs rest t h ht
  cases v with
  | null =>
    cases h
    obtain ⟨u, rfl, hu⟩ := ht.of_append _ rfl
    exact ⟨_, u, rfl, rfl, hu⟩
  | bool b =>
    cases b with
    | true =>
      cases h
      obtain ⟨u, rfl, hu⟩ := ht.of_append _ rfl
      exact ⟨_, u, rfl, rfl, hu⟩
    | false =>
      cases h
      obtain ⟨u, rfl, hu⟩ := ht.of_append _ rfl
      exact ⟨_, u, rfl, rfl, hu⟩
  | number n => exact False.elim h
  | string s =>
    cases h
    obtain ⟨u, rfl, hu⟩ := ht.of_append _ (any_isLineMark_string s)
    exact ⟨_, u, rfl, rfl, hu⟩
  | array items =>
    obtain ⟨text, htext, ds, hds, rfl⟩ := h
    obtain ⟨hrelays, hstarts⟩ := hnested text htext
    rw [List.cons_append, List.append_assoc] at ht
    obtain ⟨w, rfl, hw⟩ := ht.of_cons (by decide)
    obtain ⟨es, u, rfl, hes, hu⟩ := hds.relaid hrelays hstarts (by decide) hw
    exact ⟨_, u, by simp, ⟨text, htext, es, hes, rfl⟩, hu⟩
  | object members =>
    obtain ⟨text, htext, ds, hds, rfl⟩ := h
    obtain ⟨hrelays, hstarts⟩ := hnested text htext
    have hmember : ∀ m cs, SpelledMember text m cs → StartsItem cs := by
      rintro m _ ⟨_, _, _, -, -, -, rfl⟩
      exact ⟨'"', _, rfl, rfl, by decide⟩
    rw [List.cons_append, List.append_assoc] at ht
    obtain ⟨w, rfl, hw⟩ := ht.of_cons (by decide)
    obtain ⟨es, u, rfl, hes, hu⟩ :=
      hds.relaid (SpelledMember.relays hrelays hstarts) hmember (by decide) hw
    exact ⟨_, u, by simp, ⟨text, htext, es, hes, rfl⟩, hu⟩

/-- In another layout a text of a value is still one of its texts. -/
theorem spelled_relays (depth : Nat) : Relays (Spelled depth) := by
  induction depth with
  | zero => exact SpelledBy.relays (fun text htext => absurd htext (by simp))
  | succ depth ih =>
    refine SpelledBy.relays fun text htext => ?_
    cases htext
    exact ⟨ih, fun v cs => startsItem_of_spelled⟩

end Json
end SchemaScript
