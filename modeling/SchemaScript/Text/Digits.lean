import SchemaScript.Text.Hex

/-!
# SchemaScript.Text.Digits

Numbers written in a base up to 16, and characters given by their numbers.
-/

namespace SchemaScript
namespace Text

def isDecimal (c : Char) : Bool :=
  '0' ≤ c && c ≤ '9'

/-- Whether a character is a digit in a base up to 16. -/
def isDigitIn (base : Nat) (c : Char) : Bool :=
  (hexValue? c).any (· < base)

/-- The number with the given digits in a base up to 16; `none` without digits. -/
def numberIn? (base : Nat) (digits : List Char) : Option Nat :=
  if digits.isEmpty then none
  else digits.foldl
    (fun acc c => acc.bind fun n =>
      match hexValue? c with
      | some d => if d < base then some (base * n + d) else none
      | none => none)
    (some 0)

/-- The character with the given number, if it is one. -/
def charOf? (n : Nat) : Option Char :=
  if n < 0xD800 ∨ (0xDFFF < n ∧ n ≤ 0x10FFFF) then some (Char.ofNat n) else none

/-- A character given by a fixed number of hexadecimal digits. -/
def readHexChar (count : Nat) (cs : List Char) : Option (Char × List Char) :=
  let digits := cs.take count
  if digits.length = count then
    ((hexNumber? digits).bind charOf?).map fun c => (c, cs.drop count)
  else none

end Text
end SchemaScript
