/-!
# SchemaScript.Text.Lines

Lines of a text. A line ends at a line feed, and a carriage return right before that line feed is
part of the line end. A carriage return anywhere else is an ordinary character, and a text that
ends in a line feed has no further empty line.
-/

namespace SchemaScript
namespace Text

/-- A line without the carriage return that belongs to its line end. -/
def dropReturn (line : List Char) : List Char :=
  if line.getLast? = some '\r' then line.dropLast else line

/-- Lines of the text, the characters of the line that is being read given in reverse. -/
def linesFrom (current : List Char) : List Char → List (List Char)
  | [] => if current.isEmpty then [] else [current.reverse]
  | c :: rest =>
    if c = '\n' then dropReturn current.reverse :: linesFrom [] rest
    else linesFrom (c :: current) rest

def lineChars (cs : List Char) : List (List Char) :=
  linesFrom [] cs

theorem not_mem_of_mem_linesFrom {cs : List Char} :
    ∀ {current line : List Char}, '\n' ∉ current → line ∈ linesFrom current cs → '\n' ∉ line := by
  induction cs with
  | nil =>
    intro current line hc hl
    simp only [linesFrom] at hl
    split at hl
    · cases hl
    · rw [List.mem_singleton] at hl
      subst hl
      simpa using hc
  | cons c rest ih =>
    intro current line hc hl
    simp only [linesFrom] at hl
    split at hl
    · rcases List.mem_cons.mp hl with rfl | hl
      · intro h
        simp only [dropReturn] at h
        split at h
        · exact hc (List.mem_reverse.mp (List.dropLast_subset _ h))
        · exact hc (List.mem_reverse.mp h)
      · exact ih (by simp) hl
    · rename_i hne
      refine ih (fun h => ?_) hl
      rcases List.mem_cons.mp h with h | h
      · exact hne h.symm
      · exact hc h

/-- Lines hold no line feed. -/
theorem not_mem_of_mem_lineChars {cs line : List Char} (h : line ∈ lineChars cs) : '\n' ∉ line :=
  not_mem_of_mem_linesFrom (by simp) h

def lines (s : String) : List String :=
  (lineChars s.toList).map String.ofList

end Text
end SchemaScript
