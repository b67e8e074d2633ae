import SchemaScript.Proofs.Json.Spelling
import SchemaScript.Proofs.Json.ValueEnd

/-!
# SchemaScript.Proofs.Json.ReadBack

Each text of a value is read as that value, and what comes after it is left
(`readValue_of_spelled`). A container is read item by item: behind an item and its comma the reader
is where it was behind the opening bracket (`nextItem_comma`, `nextName_comma`).
-/

namespace SchemaScript
namespace Json

/-- The text starts like an item: not with white space, and not with the end of an array. -/
def StartsItem (cs : List Char) : Prop :=
  ∃ c rest, cs = c :: rest ∧ isSpace c = false ∧ c ≠ ']'

theorem startsItem_of_spelledBy {nested : Option (Value → List Char → Prop)} {v : Value}
    {cs : List Char} (h : SpelledBy nested v cs) : StartsItem cs := by
  cases v with
  | null => exact ⟨'n', _, h, rfl, by decide⟩
  | bool b =>
    cases b with
    | true => exact ⟨'t', _, h, rfl, by decide⟩
    | false => exact ⟨'f', _, h, rfl, by decide⟩
  | number n => exact False.elim h
  | string s => exact ⟨'"', _, h, rfl, by decide⟩
  | array items =>
    obtain ⟨-, -, ds, -, rfl⟩ := h
    exact ⟨'[', _, rfl, rfl, by decide⟩
  | object members =>
    obtain ⟨-, -, ds, -, rfl⟩ := h
    exact ⟨'\x7b', _, rfl, rfl, by decide⟩

theorem startsItem_of_spelled {depth : Nat} {v : Value} {cs : List Char}
    (h : Spelled depth v cs) : StartsItem cs := by
  cases depth <;> exact startsItem_of_spelledBy h

/-! ## Arrays -/

theorem nextItem_closing (first : Bool) {ws : List Char} (hws : IsSpaces ws) (rest : List Char) :
    nextItem first (ws ++ ']' :: rest) = .ok (none, rest) :=
  nextItem_of_closing first (by rw [skipSpace_append hws, skipSpace_cons (by decide)])

theorem nextItem_first {ws cs : List Char} (hws : IsSpaces ws) (hcs : StartsItem cs)
    (rest : List Char) : nextItem true (ws ++ (cs ++ rest)) = .ok (some (cs ++ rest), []) := by
  obtain ⟨c, cs, rfl, hc, hclosing⟩ := hcs
  have hentry : skipSpace (ws ++ (c :: cs ++ rest)) = c :: (cs ++ rest) := by
    rw [skipSpace_append hws, List.cons_append, skipSpace_cons hc]
  exact nextItem_of_entryAt hclosing hentry

/-- Behind a comma, the next item is found as behind the opening bracket. -/
theorem nextItem_comma {after ws cs : List Char} (hafter : IsSpaces after) (hws : IsSpaces ws)
    (hcs : StartsItem cs) (rest : List Char) :
    nextItem false (after ++ ',' :: (ws ++ (cs ++ rest))) = nextItem true (ws ++ (cs ++ rest)) := by
  rw [nextItem_first hws hcs]
  obtain ⟨c, cs, rfl, hc, hclosing⟩ := hcs
  rw [List.cons_append]
  refine nextItem_of_entryAt hclosing ⟨ws ++ c :: (cs ++ rest), ?_, ?_⟩
  · rw [skipSpace_append hafter, skipSpace_cons (by decide)]
  · rw [skipSpace_append hws, skipSpace_cons hc]

/-- Texts of at least one item start with the text of an item. -/
theorem Listed.starts {α : Type} {text : α → List Char → Prop} {a : α} {items : List α}
    {ds : List Char} (h : Listed text (a :: items) ds) :
    ∃ ws cs rest, IsSpaces ws ∧ text a cs ∧ ds = ws ++ (cs ++ rest) := by
  cases h with
  | last hbefore ha _ => exact ⟨_, _, _, hbefore, ha, rfl⟩
  | cons hbefore ha _ _ => exact ⟨_, _, _, hbefore, ha, rfl⟩

theorem readItems_of_listed {α : Type} {text : α → List Char → Prop} {item : Reader α}
    (hstarts : ∀ a cs, text a cs → StartsItem cs)
    (hitem : ∀ a cs, text a cs → ∀ rest, item (cs ++ rest) = .ok (a, rest)) {items : List α}
    {ds : List Char} (h : Listed text items ds) (rest : List Char) :
    ∀ steps, items.length < steps →
      readItems item steps true (ds ++ ']' :: rest) = .ok (items, rest) := by
  induction h with
  | nil hws =>
    intro steps hsteps
    cases steps with
    | zero => omega
    | succ steps => rw [readItems, nextItem_closing true hws]
  | @last a before cs after hbefore ha hafter =>
    intro steps hsteps
    simp only [List.length_cons] at hsteps
    obtain ⟨steps, rfl⟩ : ∃ more, steps = more + 2 := ⟨steps - 2, by omega⟩
    have hclose : readItems item (steps + 1) false (after ++ ']' :: rest) = .ok ([], rest) := by
      rw [readItems, nextItem_closing false hafter]
    rw [readItems]
    simp only [List.append_assoc, nextItem_first hbefore (hstarts a cs ha), hitem a cs ha, hclose]
  | @cons a b items before cs after ds hbefore ha hafter htail ih =>
    intro steps hsteps
    simp only [List.length_cons] at hsteps ih
    cases steps with
    | zero => omega
    | succ steps =>
      have hnext : readItems item steps false (after ++ ',' :: (ds ++ ']' :: rest)) =
          .ok (b :: items, rest) := by
        rw [← ih steps (by omega)]
        obtain ⟨ws, es, more, hws, hb, rfl⟩ := htail.starts
        cases steps with
        | zero => rfl
        | succ steps =>
          simp only [readItems, List.append_assoc, nextItem_comma hafter hws (hstarts b es hb)]
      rw [readItems]
      simp only [List.append_assoc, List.cons_append, nextItem_first hbefore (hstarts a cs ha),
        hitem a cs ha, hnext]

/-! ## Objects -/

theorem nextName_closing (first : Bool) {ws : List Char} (hws : IsSpaces ws) (rest : List Char) :
    nextName first (ws ++ '\x7d' :: rest) = .ok (none, rest) :=
  nextName_of_closing first (by rw [skipSpace_append hws, skipSpace_cons (by decide)])

theorem nextName_first {ws : List Char} (hws : IsSpaces ws) (rest : List Char) :
    nextName true (ws ++ '"' :: rest) = .ok (some rest, []) := by
  have hentry : skipSpace (ws ++ '"' :: rest) = '"' :: rest := by
    rw [skipSpace_append hws, skipSpace_cons (by decide)]
  exact nextName_of_entryAt hentry

/-- Behind a comma, the next name is found as behind the opening brace. -/
theorem nextName_comma {after ws : List Char} (hafter : IsSpaces after) (hws : IsSpaces ws)
    (rest : List Char) :
    nextName false (after ++ ',' :: (ws ++ '"' :: rest)) = nextName true (ws ++ '"' :: rest) := by
  rw [nextName_first hws]
  refine nextName_of_entryAt ⟨ws ++ '"' :: rest, ?_, ?_⟩
  · rw [skipSpace_append hafter, skipSpace_cons (by decide)]
  · rw [skipSpace_append hws, skipSpace_cons (by decide)]

theorem readMember_of_spelled {text : Value → List Char → Prop} {value : Reader Value}
    (hskip : ∀ ws s, IsSpaces ws → value (ws ++ s) = value s)
    (hvalue : ∀ v cs, text v cs → ∀ rest, value (cs ++ rest) = .ok (v, rest))
    {v : Value} {before after ds : List Char} (hbefore : IsSpaces before) (hafter : IsSpaces after)
    (hv : text v ds) (members : List (String × Value)) (name : String) (rest : List Char) :
    readMember value members name (before ++ ':' :: (after ++ (ds ++ rest))) =
      .ok ((name, v) :: members, rest) := by
  have hcolon : readColon (before ++ ':' :: (after ++ (ds ++ rest))) =
      .ok ((), after ++ (ds ++ rest)) := by
    rw [readColon, skipSpace_append hbefore, skipSpace_cons (by decide)]
    rfl
  simp only [readMember, hcolon, hskip after _ hafter, hvalue v ds hv]

theorem readMembers_of_listed {text : Value → List Char → Prop} {value : Reader Value}
    (hskip : ∀ ws s, IsSpaces ws → value (ws ++ s) = value s)
    (hvalue : ∀ v cs, text v cs → ∀ rest, value (cs ++ rest) = .ok (v, rest))
    {members : List (String × Value)} {ds : List Char}
    (h : Listed (SpelledMember text) members ds) (rest : List Char) :
    ∀ steps before, members.length < steps →
      readMembers (readMember value) steps true before (ds ++ '\x7d' :: rest) =
        .ok (members.reverse ++ before, rest) := by
  -- By the structure of the text: a step takes one member, and one more step sees the brace.
  induction h with
  | nil hws =>
    intro steps before hsteps
    cases steps with
    | zero => omega
    | succ steps =>
      rw [readMembers, nextName_closing true hws]
      rfl
  | @last m _ _ ws' hws hm hws' =>
    intro steps before hsteps
    obtain ⟨gap, gap', es, hgap, hgap', hv, rfl⟩ := hm
    simp only [List.length_cons] at hsteps
    obtain ⟨steps, rfl⟩ : ∃ more, steps = more + 2 := ⟨steps - 2, by omega⟩
    have hclose (state : List (String × Value)) :
        readMembers (readMember value) (steps + 1) false state (ws' ++ '\x7d' :: rest) =
          .ok (state, rest) := by
      rw [readMembers, nextName_closing false hws']
    rw [readMembers]
    simp only [List.append_assoc, List.cons_append, nextName_first hws, readString_escapeChars,
      readMember_of_spelled hskip hvalue hgap hgap' hv, hclose]
    rfl
  | @cons m n members _ _ ws' ds hws hm hws' htail ih =>
    intro steps before hsteps
    obtain ⟨gap, gap', es, hgap, hgap', hv, rfl⟩ := hm
    simp only [List.length_cons] at hsteps ih
    cases steps with
    | zero => omega
    | succ steps =>
      have hnext : readMembers (readMember value) steps false (m :: before)
          (ws' ++ ',' :: (ds ++ '\x7d' :: rest)) =
            .ok ((n :: members).reverse ++ m :: before, rest) := by
        -- Behind the comma a name must follow, which is where `ih` starts.
        rw [← ih steps (m :: before) (by omega)]
        obtain ⟨ws, cs, more, hws, ⟨_, _, _, _, _, _, rfl⟩, rfl⟩ := htail.starts
        cases steps with
        | zero => rfl
        | succ steps =>
          simp only [readMembers, List.append_assoc, List.cons_append, nextName_comma hws' hws]
      rw [readMembers]
      simp only [List.append_assoc, List.cons_append, nextName_first hws, readString_escapeChars,
        readMember_of_spelled hskip hvalue hgap hgap' hv, hnext]
      simp

/-! ## Values -/

theorem readValueBy_skipSpace (nested : Option (Reader Value)) {ws : List Char} (hws : IsSpaces ws)
    (s : List Char) : readValueBy nested (ws ++ s) = readValueBy nested s := by
  rw [readValueBy, readValueBy, skipSpace_append hws]

theorem readValue_skipSpace (depth : Nat) {ws : List Char} (hws : IsSpaces ws) (s : List Char) :
    readValue depth (ws ++ s) = readValue depth s := by
  cases depth <;> exact readValueBy_skipSpace _ hws s

theorem readValueBy_string (nested : Option (Reader Value)) (s : String) (rest : List Char) :
    readValueBy nested ('"' :: (escapeChars s.toList ++ '"' :: rest)) = .ok (.string s, rest) := by
  rw [readValueBy, skipSpace_cons (by decide)]
  simp only [readString_escapeChars]

theorem readValueBy_array {value : Reader Value} {items : List Value} {s rest : List Char}
    (h : readItems value (s.length + 1) true s = .ok (items, rest)) :
    readValueBy (some value) ('[' :: s) = .ok (.array items, rest) := by
  rw [readValueBy, skipSpace_cons (by decide)]
  simp only [h]

theorem readValueBy_object {value : Reader Value} {members : List (String × Value)}
    {s rest : List Char}
    (h : readMembers (readMember value) (s.length + 1) true [] s = .ok (members.reverse, rest)) :
    readValueBy (some value) ('\x7b' :: s) = .ok (.object members, rest) := by
  rw [readValueBy, skipSpace_cons (by decide)]
  simp only [h, List.reverse_reverse]

/-- Texts have at least as many characters as items, so that the steps of a reader are enough. -/
theorem Listed.length_le {α : Type} {text : α → List Char → Prop}
    (hstarts : ∀ a cs, text a cs → cs ≠ []) {items : List α} {ds : List Char}
    (h : Listed text items ds) : items.length ≤ ds.length := by
  induction h with
  | nil => simp
  | last _ ha _ =>
    have hne := List.length_pos_iff.mpr (hstarts _ _ ha)
    simp only [List.length_cons, List.length_nil, List.length_append]
    omega
  | cons _ ha _ _ ih =>
    have hne := List.length_pos_iff.mpr (hstarts _ _ ha)
    simp only [List.length_cons, List.length_append] at ih ⊢
    omega

theorem readValueBy_scalar (nested : Option (Reader Value)) {v : Value} {cs : List Char}
    (h : SpelledBy none v cs) (rest : List Char) :
    readValueBy nested (cs ++ rest) = .ok (v, rest) := by
  cases v with
  | null => cases h; rfl
  | bool b => cases b <;> cases h <;> rfl
  | number n => exact False.elim h
  | string s =>
    cases h
    simp only [List.cons_append, List.append_assoc]
    exact readValueBy_string nested s rest
  | array items =>
    obtain ⟨_, h, -⟩ := h
    cases h
  | object members =>
    obtain ⟨_, h, -⟩ := h
    cases h

/-- A text of a value is read as that value, and what comes after it is left. -/
theorem readValue_of_spelled {depth : Nat} {v : Value} {cs : List Char} (h : Spelled depth v cs)
    (rest : List Char) : readValue depth (cs ++ rest) = .ok (v, rest) := by
  induction depth generalizing v cs rest with
  | zero => exact readValueBy_scalar none h rest
  | succ depth ih =>
    have hitem : ∀ v cs, Spelled depth v cs →
        ∀ rest, readValue depth (cs ++ rest) = .ok (v, rest) :=
      fun v cs hv rest => ih hv rest
    cases v with
    | null => exact readValueBy_scalar (v := .null) _ h rest
    | bool b =>
      cases b with
      | true => exact readValueBy_scalar (v := .bool true) _ h rest
      | false => exact readValueBy_scalar (v := .bool false) _ h rest
    | number n => exact False.elim h
    | string s => exact readValueBy_scalar (v := .string s) _ h rest
    | array items =>
      obtain ⟨_, ⟨⟩, ds, hds, rfl⟩ := h
      have hlength := hds.length_le fun v cs hv => by
        obtain ⟨c, tail, rfl, -⟩ := startsItem_of_spelled hv
        simp
      simp only [List.cons_append, List.append_assoc]
      refine readValueBy_array (readItems_of_listed (fun v cs => startsItem_of_spelled) hitem hds
        rest _ ?_)
      simp only [List.length_append]
      omega
    | object members =>
      obtain ⟨_, ⟨⟩, ds, hds, rfl⟩ := h
      have hlength := hds.length_le fun m cs hm => by
        obtain ⟨_, _, _, -, -, -, rfl⟩ := hm
        simp
      simp only [List.cons_append, List.append_assoc]
      refine readValueBy_object ?_
      rw [List.nil_append, readMembers_of_listed (fun ws s hws => readValue_skipSpace depth hws s)
        hitem hds]
      · simp
      · simp only [List.length_append]
        omega

/-! ## Whole texts -/

theorem readEnd_eq_ok {s : List Char} : readEnd s = .ok () ↔ skipSpace s = [] := by
  unfold readEnd
  split
  · rename_i hspace
    exact iff_of_true rfl hspace
  · rename_i hspace
    exact iff_of_false (by rintro ⟨⟩) hspace

theorem read_eq_ok {text : String} {v : Value} :
    read text = .ok v ↔
      ∃ rest, readValue largestDepth text.toList = .ok (v, rest) ∧ skipSpace rest = [] := by
  unfold read
  constructor
  · intro h
    split at h
    · cases h
    rename_i w rest hvalue
    split at h
    · cases h
    rename_i hend
    cases h
    exact ⟨rest, hvalue, readEnd_eq_ok.mp hend⟩
  · rintro ⟨rest, hvalue, hspace⟩
    simp only [hvalue, readEnd_eq_ok.mpr hspace]

theorem read_of_spelled {text : String} {v : Value} (h : Spelled largestDepth v text.toList) :
    read text = .ok v := by
  have hread := readValue_of_spelled h []
  rw [List.append_nil] at hread
  exact read_eq_ok.mpr ⟨[], hread, rfl⟩

end Json
end SchemaScript
