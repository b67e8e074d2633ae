import Mathlib.Data.List.Basic
import Mathlib.Data.List.TakeWhile
import SchemaScript.Collection.Shell
import SchemaScript.Proofs.Json.Squeezed
import SchemaScript.Proofs.Json.ValueLayout

/-!
# SchemaScript.Proofs.Collection.Indentation

Lines of a JSON text that are moved to the right leave its value as it is.

* `relaid_indent`: lines are split and joined without a look at what stands in them, and all that
  changes is the white space from the end of a line on. That is the carriage return that is dropped
  in front of a line feed, the blanks that are put behind it, and the end of the last line.
* `spelled_indent`: the indented text of a value is still a text of this value.
* `indent_keeps_value`: it is read as the value, as the text itself is.
-/

namespace SchemaScript

open Json (Relaid IsBreak)

/-! ## Lines -/

/-- Lines with line feeds between them and blanks in front of each but the first. -/
def joinLines (pad : List Char) : List (List Char) → List Char
  | [] => []
  | first :: rest => first ++ rest.flatMap fun line => '\n' :: (pad ++ line)

theorem linesFrom_ne_nil {current cs : List Char} (h : current ≠ [] ∨ cs ≠ []) :
    Text.linesFrom current cs ≠ [] := by
  cases cs with
  | nil =>
    have hc : current ≠ [] := h.resolve_right (by simp)
    simp [Text.linesFrom, hc]
  | cons c cs =>
    by_cases hc : c = '\n'
    · simp [Text.linesFrom, hc]
    · rw [Text.linesFrom, if_neg hc]
      exact linesFrom_ne_nil (.inl (by simp))

theorem joinLines_cons (pad line : List Char) {lines : List (List Char)} (h : lines ≠ []) :
    joinLines pad (line :: lines) = line ++ ('\n' :: pad ++ joinLines pad lines) := by
  obtain ⟨first, rest, rfl⟩ := List.exists_cons_of_ne_nil h
  simp [joinLines]

/-- What is dropped at the end of a line is part of its line end. -/
theorem exists_dropReturn (line : List Char) :
    ∃ mark, line = Text.dropReturn line ++ mark ∧ IsBreak (mark ++ ['\n']) := by
  have hfeed : Json.IsSpaces ['\n'] := Json.isSpaces_cons rfl Json.isSpaces_nil
  unfold Text.dropReturn
  split
  · rename_i hreturn
    exact ⟨['\r'], (List.dropLast_append_getLast? _ hreturn).symm, '\r', ['\n'], rfl, rfl, hfeed⟩
  · exact ⟨[], by simp, '\n', [], rfl, rfl, Json.isSpaces_nil⟩

/-- Only where nothing comes after the text, its last line may have an end. -/
theorem relaid_joinLines {pad : List Char} (hpad : Json.IsSpaces pad) (cs : List Char)
    {rest : List Char} (hrest : rest = [] ∨ cs.getLast? ≠ some '\n') :
    ∀ current, Relaid (current.reverse ++ (cs ++ rest))
      (joinLines pad (Text.linesFrom current cs) ++ rest) := by
  -- `current` is the line so far, backwards; it grows until a line feed ends it.
  induction cs with
  | nil =>
    intro current
    cases current with
    | nil => exact .refl rest
    | cons c current =>
      simpa [Text.linesFrom, joinLines] using Relaid.refl (current.reverse ++ c :: rest)
  | cons c cs ih =>
    intro current
    have hih := ih (hrest.imp_right fun hlast h => hlast (by simp [List.getLast?_cons, h]))
    by_cases hc : c = '\n'
    · obtain ⟨mark, hline, hmark⟩ := exists_dropReturn current.reverse
      have hbreak : IsBreak ('\n' :: pad) := ⟨'\n', pad, rfl, rfl, hpad⟩
      have htext : current.reverse ++ ('\n' :: cs ++ rest) =
          Text.dropReturn current.reverse ++ ((mark ++ ['\n']) ++ (cs ++ rest)) := by
        rw [List.append_assoc mark, List.singleton_append,
          ← List.append_assoc (Text.dropReturn _), ← hline, List.cons_append]
      rw [Text.linesFrom, if_pos hc, hc, htext]
      by_cases hlines : Text.linesFrom [] cs = []
      · have hcs : cs = [] := by
          by_contra hcs
          exact linesFrom_ne_nil (.inr hcs) hlines
        have hend : rest = [] := hrest.resolve_right fun hlast => hlast (by simp [hc, hcs])
        rw [hlines, hcs, hend, joinLines, List.flatMap_nil, List.append_nil, List.append_nil,
          List.append_nil]
        exact (Relaid.ends (.inr hmark) (.inl rfl)).prepend _
      · rw [joinLines_cons pad _ hlines, List.append_assoc (Text.dropReturn _),
          List.append_assoc ('\n' :: pad)]
        exact (Relaid.breaks hmark hbreak (hih [])).prepend _
    · have hnext := hih (c :: current)
      rw [List.reverse_cons, List.append_assoc] at hnext
      rw [Text.linesFrom, if_neg hc]
      exact hnext

/-! ## Indentation -/

theorem toList_indent_eq_joinLines (text : String) (width : Nat) :
    (Collection.indent text width).toList =
      joinLines (List.replicate width ' ') (Text.lineChars text.toList) := by
  rw [Collection.indent, Text.lines]
  cases Text.lineChars text.toList with
  | nil => rfl
  | cons first rest =>
    have hfeed : "\n".toList = ['\n'] := rfl
    simp [String.toList_intercalate, Text.intercalate_cons, joinLines, List.flatMap_map,
      Function.comp_def, hfeed]

theorem relaid_indent_append (text : String) (width : Nat) {rest : List Char}
    (hrest : rest = [] ∨ text.toList.getLast? ≠ some '\n') :
    Relaid (text.toList ++ rest) ((Collection.indent text width).toList ++ rest) := by
  rw [toList_indent_eq_joinLines]
  exact relaid_joinLines (Json.isSpaces_blanks width) text.toList hrest []

/-- Whatever the text is, indentation changes only the white space from the end of a line on. -/
theorem relaid_indent (text : String) (width : Nat) :
    Relaid text.toList (Collection.indent text width).toList := by
  have h := relaid_indent_append text width (.inl rfl)
  rwa [List.append_nil, List.append_nil] at h

example : Collection.indent "[\r\n1]\n" 2 = "[\n  1]" := by decide

/-- No text of a value ends with a line feed. -/
theorem getLast?_of_spelledBy {nested : Option (Json.Value → List Char → Prop)} {v : Json.Value}
    {cs : List Char} (h : Json.SpelledBy nested v cs) : cs.getLast? ≠ some '\n' := by
  cases v with
  | null => cases h; decide
  | bool b => cases b <;> cases h <;> decide
  | number n => exact False.elim h
  | string s => cases h; simp [List.getLast?_cons]
  | array items =>
    obtain ⟨-, -, ds, -, rfl⟩ := h
    simp [List.getLast?_cons]
  | object members =>
    obtain ⟨-, -, ds, -, rfl⟩ := h
    simp [List.getLast?_cons]

/-- The indented text of a value is one of its texts. -/
theorem spelled_indent {depth : Nat} {v : Json.Value} (h : v.Fits depth) (width : Nat) :
    Json.Spelled depth v (Collection.indent v.pretty width).toList := by
  have hspelled := Json.spelled_prettyAt depth 0 v h
  have hlast : v.pretty.toList.getLast? ≠ some '\n' := by
    cases depth <;> exact getLast?_of_spelledBy hspelled
  -- With a bracket behind it, the text cannot have got an end of its last line.
  have hrelaid := relaid_indent_append v.pretty width (.inr hlast : [']'] = [] ∨ _)
  obtain ⟨ds, t, hds, hspelled', ht⟩ := Json.spelled_relays depth hspelled hrelaid
  obtain ⟨u, rfl, hu⟩ := ht.of_cons (by decide)
  have hspaces : ∀ c ∈ u, Json.isSpace c = true :=
    List.dropWhile_eq_nil_iff.mp (hu.skipSpace_nil rfl)
  rcases List.eq_nil_or_concat u with rfl | ⟨u, c, rfl⟩
  · rwa [List.append_cancel_right hds]
  · have hbracket : ']' = c := by
      simpa [List.getLast?_cons] using congrArg List.getLast? hds
    exact absurd (hspaces c (by simp)) (by rw [← hbracket]; decide)

/-! ## Schemas -/

theorem Property.fits_toJson (p : Property) (depth : Nat) : p.toJson.Fits (depth + 1) := by
  intro m hm
  simp only [List.mem_cons, List.not_mem_nil, or_false] at hm
  rcases hm with rfl | rfl <;> exact Json.fits_string depth _

/-- A schema has no numbers, and is at most three containers deep. -/
theorem CollectionSchema.fits_toJson (s : CollectionSchema) (depth : Nat) :
    s.toJson.Fits (depth + 3) := by
  intro m hm
  simp only [List.mem_append, List.mem_cons, List.not_mem_nil, or_false] at hm
  rcases hm with ((rfl | rfl | rfl) | hm) | rfl
  · exact Json.fits_string _ _
  · exact Json.fits_string _ _
  · exact Json.fits_string _ _
  · split at hm
    · cases hm
    · rw [List.mem_singleton.mp hm]
      intro v hv
      obtain ⟨name, -, rfl⟩ := List.mem_map.mp hv
      exact Json.fits_string _ _
  · intro m hm
    obtain ⟨e, -, rfl⟩ := List.mem_map.mp hm
    exact e.2.fits_toJson depth

namespace CollectionSchema

/-- A schema is read from its text. -/
theorem read_pretty (s : CollectionSchema) : Json.read s.toJson.pretty = .ok s.toJson :=
  Json.read_of_spelled (Json.spelled_prettyAt Json.largestDepth 0 s.toJson (s.fits_toJson 124))

end CollectionSchema

namespace Collection

/-- With any width, the indented text of a schema is read as the schema, as the text itself is. For
all JSON values, those with numbers and those that are too deep to be read included, the indented
text is read as the value that the text itself is read as, if there is one. Apart from the white
space outside of strings both texts are the text of the value in one line, so that no character of a
string is touched. -/
theorem indent_keeps_value :
    (∀ (s : CollectionSchema) (width : Nat),
      Json.read s.toJson.pretty = .ok s.toJson ∧
      Json.read (indent s.toJson.pretty width) = .ok s.toJson) ∧
    ∀ (v : Json.Value) (width : Nat),
      (∀ w, Json.read (indent v.pretty width) = .ok w ↔ Json.read v.pretty = .ok w) ∧
      Json.squeeze? v.pretty = some v.compact ∧
      Json.squeeze? (indent v.pretty width) = some v.compact := by
  have hread (text : String) (width : Nat) (w : Json.Value) :
      Json.read (indent text width) = .ok w ↔ Json.read text = .ok w :=
    Json.read_relaid (relaid_indent text width) w
  refine ⟨fun s width => ⟨s.read_pretty, (hread _ _ _).mpr s.read_pretty⟩, fun v width => ?_⟩
  have hsqueeze := Json.squeeze?_pretty v
  refine ⟨hread _ _, hsqueeze, ?_⟩
  rw [Json.squeeze?_relaid (relaid_indent v.pretty width), hsqueeze]

end Collection
end SchemaScript
