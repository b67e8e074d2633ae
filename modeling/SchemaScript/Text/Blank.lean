/-!
# SchemaScript.Text.Blank

White space of texts: the characters with the Unicode property `White_Space`, and what is left of
a text without them at its ends.
-/

namespace SchemaScript
namespace Text

/-- The property `White_Space`: 25 characters in ten runs. -/
def isBlank (c : Char) : Bool :=
  (9 ≤ c.val && c.val ≤ 13) || c.val == 0x20 || c.val == 0x85 || c.val == 0xA0 ||
    c.val == 0x1680 || (0x2000 ≤ c.val && c.val ≤ 0x200A) || c.val == 0x2028 ||
    c.val == 0x2029 || c.val == 0x202F || c.val == 0x205F || c.val == 0x3000

/-- The characters after the leading white space. -/
def trimStartChars (cs : List Char) : List Char :=
  cs.dropWhile isBlank

/-- The characters up to the trailing white space. -/
def trimEndChars (cs : List Char) : List Char :=
  (cs.reverse.dropWhile isBlank).reverse

theorem mem_of_mem_trimEndChars {c : Char} {cs : List Char} (h : c ∈ trimEndChars cs) : c ∈ cs := by
  rw [trimEndChars, List.mem_reverse] at h
  exact List.mem_reverse.mp ((List.dropWhile_sublist _).mem h)

def trimChars (cs : List Char) : List Char :=
  trimEndChars (trimStartChars cs)

theorem mem_of_mem_trimChars {c : Char} {cs : List Char} (h : c ∈ trimChars cs) : c ∈ cs :=
  (List.dropWhile_sublist _).mem (mem_of_mem_trimEndChars h)

def trimEnd (s : String) : String :=
  String.ofList (trimEndChars s.toList)

def trim (s : String) : String :=
  String.ofList (trimChars s.toList)

theorem mem_of_mem_trim {c : Char} {s : String} (h : c ∈ (trim s).toList) : c ∈ s.toList := by
  rw [trim, String.toList_ofList] at h
  exact mem_of_mem_trimChars h

/-- A text is blank when it holds nothing but white space. -/
def allBlank (s : String) : Bool :=
  s.toList.all isBlank

/-- The maximal runs without white space, in order. -/
def wordsOf (current : List Char) : List Char → List (List Char)
  | [] => if current.isEmpty then [] else [current.reverse]
  | c :: rest =>
    if isBlank c then
      if current.isEmpty then wordsOf [] rest else current.reverse :: wordsOf [] rest
    else wordsOf (c :: current) rest

def words (s : String) : List String :=
  (wordsOf [] s.toList).map String.ofList

end Text
end SchemaScript
