import SchemaScript.Proofs.Collection.Command
import SchemaScript.Proofs.Json.Spelling

/-!
# SchemaScript.Proofs.Collection.Passage

How the parts of a command are read wherever they stand.

`Passage before after cs`: in a command, the reader passes over `cs` and keeps it; it awaits the
brackets `after` where it awaited `before`. Fixed texts have this property by evaluation
(`passage_plain`), strings and JSON texts have it with the same brackets before and after
(`passage_stringText`, `passage_spelled`), and it passes to what is put together from them
(`Passage.append`).
-/

namespace SchemaScript

def Passage (before after cs : List Char) : Prop :=
  ∀ more read rest, read ≠ [] →
    commandTexts .outside (before ++ more) read (cs ++ rest) =
      commandTexts .outside (after ++ more) (cs.reverse ++ read) rest

namespace Passage

variable {a b c cs ds : List Char}

theorem nil (a : List Char) : Passage a a [] := by
  intro more read rest _
  rfl

theorem append (hcs : Passage a b cs) (hds : Passage b c ds) : Passage a c (cs ++ ds) := by
  intro more read rest hread
  rw [List.append_assoc, hcs more read _ hread, hds more _ rest (by simp [hread])]
  simp

/-- Further brackets that are awaited do not matter. -/
theorem frame (h : Passage [] [] cs) (a : List Char) : Passage a a cs := by
  intro more read rest hread
  exact h (a ++ more) read rest hread

end Passage

/-! ## Plain texts -/

/-- The brackets that are awaited behind a text without strings, slashes and semicolons. -/
def awaitedBehindText : List Char → List Char → Option (List Char)
  | awaited, [] => some awaited
  | awaited, c :: cs =>
    if c ∈ ['"', '/', ';'] then none
    else (awaitedBehind awaited c).bind fun awaited => awaitedBehindText awaited cs

theorem awaitedBehind_append {a b : List Char} {c : Char} (h : awaitedBehind a c = some b)
    (more : List Char) : awaitedBehind (a ++ more) c = some (b ++ more) := by
  unfold awaitedBehind at h ⊢
  cases hc : closingOf? c with
  | some closing =>
    rw [hc] at h
    cases h
    rfl
  | none =>
    rw [hc] at h
    by_cases hclosing : c ∈ [')', ']', '\x7d']
    · simp only [if_pos hclosing] at h ⊢
      cases a with
      | nil => cases h
      | cons d a =>
        simp only [List.cons_append] at h ⊢
        split at h
        · rename_i hd
          cases h
          rw [if_pos hd]
        · cases h
    · simp only [if_neg hclosing] at h ⊢
      cases h
      rfl

theorem passage_plain {cs : List Char} :
    ∀ {before after : List Char}, awaitedBehindText before cs = some after →
      Passage before after cs := by
  induction cs with
  | nil =>
    intro before after h
    cases h
    exact .nil before
  | cons c cs ih =>
    intro before after h more read rest hread
    rw [awaitedBehindText] at h
    split at h
    · cases h
    · rename_i hc
      obtain ⟨awaited, hawaited, hcs⟩ := Option.bind_eq_some_iff.mp h
      have hslash : c ≠ '/' := fun hslash => hc (by simp [hslash])
      have hquote : c ≠ '"' := fun hquote => hc (by simp [hquote])
      have hsemicolon : c ≠ ';' := fun hsemicolon => hc (by simp [hsemicolon])
      have hkeep : keep read c = c :: read := if_neg fun h => hread h.1
      rw [List.cons_append, commandTexts, if_neg fun h => hslash h.1, if_neg hquote,
        if_neg hsemicolon, awaitedBehind_append hawaited]
      simp only [hkeep]
      rw [ih hcs more (c :: read) rest (by simp)]
      simp

/-- A character without a meaning for the reader. -/
def isPlainChar (c : Char) : Bool :=
  c ∉ ['"', '/', ';', '(', ')', '[', ']', '\x7b', '\x7d']

theorem passage_of_isPlainChar {cs : List Char} (h : ∀ c ∈ cs, isPlainChar c = true) :
    Passage [] [] cs := by
  refine passage_plain ?_
  induction cs with
  | nil => rfl
  | cons c cs ih =>
    have hc := h c (by simp)
    have hcs := ih fun d hd => h d (by simp [hd])
    simp only [isPlainChar, List.mem_cons, List.not_mem_nil, or_false, not_or,
      decide_eq_true_eq] at hc
    have hopening : closingOf? c = none := by
      unfold closingOf?
      split <;> simp_all
    simp [awaitedBehindText, awaitedBehind, hopening, hc, hcs]

theorem passage_isSpaces {ws : List Char} (hws : Json.IsSpaces ws) : Passage [] [] ws := by
  refine passage_of_isPlainChar fun c hc => ?_
  have hspace := hws c hc
  simp only [Json.isSpace, Bool.or_eq_true, beq_iff_eq] at hspace
  rcases hspace with ((rfl | rfl) | rfl) | rfl <;> decide

/-! ## Strings -/

/-- Inside of a string, escaped text is passed: a backslash hides the character behind it from the
reader. -/
theorem commandTexts_escapeChars (cs : List Char) :
    ∀ awaited read rest, commandTexts .string awaited read (Json.escapeChars cs ++ rest) =
      commandTexts .string awaited ((Json.escapeChars cs).reverse ++ read) rest := by
  refine Json.of_escapeChars (p := fun cs => ∀ awaited read rest,
    commandTexts .string awaited read (cs ++ rest) =
      commandTexts .string awaited (cs.reverse ++ read) rest) ?_ ?_ ?_ ?_ cs
  · intro awaited read rest
    rfl
  · intro cs ds hcs hds awaited read rest
    rw [List.append_assoc, hcs, hds]
    simp
  · intro c hquote hslash hc awaited read rest
    rw [List.singleton_append, commandTexts, if_neg hquote, if_neg hslash, if_neg (by omega)]
    rfl
  · intro c _ awaited read rest
    rfl

/-- A string is passed as a whole, whatever its text. -/
theorem passage_string (s : String) :
    Passage [] [] ('"' :: (Json.escapeChars s.toList ++ ['"'])) := by
  intro more read rest hread
  have hopen : commandTexts .outside more read
      ('"' :: (Json.escapeChars s.toList ++ '"' :: rest)) =
        commandTexts .string more ('"' :: read) (Json.escapeChars s.toList ++ '"' :: rest) := by
    rw [commandTexts, if_neg (by simp), if_pos rfl]
  have hclose (read : List Char) : commandTexts .string more read ('"' :: rest) =
      commandTexts .outside more ('"' :: read) rest := by
    rw [commandTexts, if_pos rfl]
  simp only [List.nil_append, List.cons_append, List.append_assoc]
  rw [hopen, commandTexts_escapeChars, hclose]
  simp

theorem passage_stringText (s : String) : Passage [] [] (Json.stringText s).toList := by
  rw [Json.toList_stringText]
  exact passage_string s

/-! ## JSON texts -/

theorem passage_tokenwise : Json.Tokenwise (Passage [] []) where
  append := .append
  spaces := passage_isSpaces
  token s hs := by
    have hclosed : ∀ s ∈ Json.plainTokens, awaitedBehindText [] s.toList = some [] := by decide
    exact passage_plain (hclosed s hs)
  string := passage_string
  array hcs := by
    have hopen : Passage [] [']'] ['['] := passage_plain rfl
    have hclose : Passage [']'] [] [']'] := passage_plain rfl
    exact hopen.append ((hcs.frame [']']).append hclose)
  object hcs := by
    have hopen : Passage [] ['\x7d'] ['\x7b'] := passage_plain rfl
    have hclose : Passage ['\x7d'] [] ['\x7d'] := passage_plain rfl
    exact hopen.append ((hcs.frame ['\x7d']).append hclose)

/-- A text of a JSON value closes all brackets that it opens. -/
theorem passage_spelled {depth : Nat} {v : Json.Value} {cs : List Char}
    (h : Json.Spelled depth v cs) : Passage [] [] cs :=
  passage_tokenwise.of_spelled h

end SchemaScript
