/-!
# SchemaScript.Proofs.Text.Intercalate

Pieces of text with a separator between them. Behind the first piece, each separator goes with the
piece that follows it (`intercalate_cons`), so that what is known of appended texts is known of
pieces in any number. This goes for properties of texts (`of_intercalate`) and for relations between
texts and the items found in them (`Additive.lines`, `Additive.paragraphs`).
-/

namespace SchemaScript
namespace Text

variable {α : Type}

theorem intercalate_cons (sep first : List α) (rest : List (List α)) :
    sep.intercalate (first :: rest) = first ++ rest.flatMap (sep ++ ·) := by
  induction rest generalizing first with
  | nil => simp
  | cons next rest ih =>
    rw [List.intercalate_cons_cons, ih, List.flatMap_cons, List.append_assoc, List.append_assoc]

theorem prefix_intercalate (sep first : List α) (rest : List (List α)) :
    first <+: sep.intercalate (first :: rest) := by
  rw [intercalate_cons]
  exact List.prefix_append _ _

/-- With one more `last` behind it, each piece is followed by `last`, and all but the first have
`gap` in front of them. -/
theorem intercalate_append (last gap first : List α) (rest : List (List α)) :
    (last ++ gap).intercalate (first :: rest) ++ last =
      (first ++ last) ++ rest.flatMap fun cs => gap ++ (cs ++ last) := by
  induction rest generalizing first with
  | nil => simp
  | cons next rest ih =>
    rw [List.intercalate_cons_cons, List.append_assoc, ih]
    simp

/-- A property of texts that passes to appended texts. -/
theorem of_intercalate {p : List α → Prop} (hnil : p [])
    (happend : ∀ {cs ds}, p cs → p ds → p (cs ++ ds)) {sep : List α} (hsep : p sep)
    {css : List (List α)} (h : ∀ cs ∈ css, p cs) : p (sep.intercalate css) := by
  induction css with
  | nil => exact hnil
  | cons cs css ih =>
    have hcs := h cs (by simp)
    cases css with
    | nil => simpa using hcs
    | cons ds css =>
      rw [List.intercalate_cons_cons]
      exact happend (happend hcs hsep) (ih fun ds hds => h ds (by simp [hds]))

/-- A relation between texts and lists of items, by which appended texts have the items of both. -/
structure Additive {β : Type} (holds : List α → List β → Prop) : Prop where
  nil : holds [] []
  append : ∀ {cs ds bs bs'}, holds cs bs → holds ds bs' → holds (cs ++ ds) (bs ++ bs')

namespace Additive

variable {β ι : Type}

theorem flatMap {holds : List α → List β → Prop} (hadd : Additive holds) (text : ι → List α)
    (items : ι → List β) {is : List ι} (h : ∀ i ∈ is, holds (text i) (items i)) :
    holds (is.flatMap text) (is.flatMap items) := by
  induction is with
  | nil => exact hadd.nil
  | cons i is ih => exact hadd.append (h i (by simp)) (ih fun j hj => h j (by simp [hj]))

variable {holds : List Char → List β → Prop}

/-- One text to a line. -/
theorem lines (hadd : Additive holds) {text : ι → String} {item : ι → β} {is : List ι}
    (hne : is ≠ []) (h : ∀ i ∈ is, holds ((text i).toList ++ ['\n']) [item i]) :
    holds ((String.intercalate "\n" (is.map text)).toList ++ ['\n']) (is.map item) := by
  have hfeed : "\n".toList = ['\n'] ++ [] := rfl
  have hlines := hadd.flatMap (fun i => (text i).toList ++ ['\n']) (fun i => [item i]) h
  obtain ⟨i, is, rfl⟩ := List.exists_cons_of_ne_nil hne
  rw [← List.map_eq_flatMap] at hlines
  rw [String.toList_intercalate, List.map_cons, List.map_cons, hfeed, intercalate_append]
  simpa [List.flatMap_map] using hlines

/-- Blocks with an empty line in front of each but the first. -/
theorem paragraphs (hadd : Additive holds) {first : String} {firstItems : List β}
    {blocks : ι → List String} {items : ι → List β} {is : List ι}
    (hfirst : holds (first.toList ++ ['\n']) firstItems)
    (h : ∀ i ∈ is,
      holds ((blocks i).flatMap fun block => ['\n'] ++ (block.toList ++ ['\n'])) (items i)) :
    holds (String.intercalate "\n\n" (first :: is.flatMap blocks) ++ "\n").toList
      (firstItems ++ is.flatMap items) := by
  have hfeed : "\n".toList = ['\n'] := rfl
  have hgap : "\n\n".toList = ['\n'] ++ ['\n'] := rfl
  have hparagraphs := hadd.append hfirst (hadd.flatMap _ _ h)
  rw [String.toList_append, String.toList_intercalate, hfeed, hgap, List.map_cons,
    intercalate_append]
  simpa [List.flatMap_map, List.flatMap_assoc] using hparagraphs

end Additive
end Text
end SchemaScript
