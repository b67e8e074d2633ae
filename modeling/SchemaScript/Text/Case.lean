import SchemaScript.Text.CaseTable

/-!
# SchemaScript.Text.Case

Letter case of texts, letter by letter and with the full mappings: the capital form of `ß` is
`SS`, and the small form of the Kelvin sign is `k`.

The one mapping that depends on the letters around is left out: the small form of a capital sigma is
`σ` at the end of a word too, where it would be `ς`. Small forms are taken of the names of dialects,
which have no sigma, and else only compared with ASCII words, which have neither.
-/

namespace SchemaScript
namespace Text

/-- The image of a character that lies beyond the first 128. -/
def mapLetter (runs : List CaseRun) (sequences : List (Nat × List Nat)) (c : Char) : List Char :=
  match runs.find? (·.covers c.toNat) with
  | some run => [Char.ofNat (run.image c.toNat)]
  | none =>
    match sequences.lookup c.toNat with
    | some image => image.map Char.ofNat
    | none => [c]

def upperChar (c : Char) : List Char :=
  if c.toNat < 128 then [c.toUpper] else mapLetter upperRuns upperSequences c

def lowerChar (c : Char) : List Char :=
  if c.toNat < 128 then [c.toLower] else mapLetter lowerRuns lowerSequences c

def upperChars (cs : List Char) : List Char :=
  cs.flatMap upperChar

/-- The small forms of the letters, without the rule for a sigma at the end of a word. -/
def lowerChars (cs : List Char) : List Char :=
  cs.flatMap lowerChar

def upper (s : String) : String :=
  String.ofList (upperChars s.toList)

def lower (s : String) : String :=
  String.ofList (lowerChars s.toList)

/-- Equality of texts up to the case of the letters `A` to `Z`. -/
def equalAsciiCase (s t : String) : Bool :=
  s.toList.map Char.toLower == t.toList.map Char.toLower

end Text
end SchemaScript
