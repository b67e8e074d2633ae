import SchemaScript.Decimal.Range
import SchemaScript.Toml.Lexeme

/-!
# SchemaScript.Toml.Quantity

Numbers, dates and times of TOML documents. They are checked and passed over; a value that begins
with a digit or a sign is the first of these that its text fits.
-/

namespace SchemaScript
namespace Toml

open Text (isDecimal numberIn?)

/-! ## Dates and times -/

/-- A number of exactly `count` digits within bounds. -/
def readFixed (count low high : Nat) (cs : List Char) : Option (Nat × List Char) :=
  let digits := cs.take count
  if digits.length = count ∧ digits.all isDecimal then
    (numberIn? 10 digits).bind fun n =>
      if low ≤ n ∧ n ≤ high then some (n, cs.drop count) else none
  else none

def skipMark (mark : Char) : List Char → Option (List Char)
  | c :: rest => if c = mark then some rest else none
  | [] => none

def daysIn (year month : Nat) : Nat :=
  if month = 2 then
    if year % 4 = 0 ∧ (year % 100 ≠ 0 ∨ year % 400 = 0) then 29 else 28
  else if month ∈ [4, 6, 9, 11] then 30
  else 31

def skipDate (cs : List Char) : Option (List Char) := do
  let (year, cs) ← readFixed 4 0 9999 cs
  let (month, cs) ← readFixed 2 1 12 (← skipMark '-' cs)
  let (_, cs) ← readFixed 2 1 (daysIn year month) (← skipMark '-' cs)
  return cs

/-- The part of a second, a point and digits; without digits the point is left. -/
def skipSecondPart (cs : List Char) : List Char :=
  match cs with
  | '.' :: c :: rest => if isDecimal c then rest.dropWhile isDecimal else cs
  | _ => cs

def skipTime (cs : List Char) : Option (List Char) := do
  let (_, cs) ← readFixed 2 0 23 cs
  let (_, cs) ← readFixed 2 0 59 (← skipMark ':' cs)
  let (_, cs) ← readFixed 2 0 60 (← skipMark ':' cs)
  return skipSecondPart cs

def skipOffset (cs : List Char) : Option (List Char) :=
  match cs with
  | c :: rest =>
    if c = 'Z' ∨ c = 'z' then some rest
    else if c = '+' ∨ c = '-' then do
      let (_, rest) ← readFixed 2 0 23 rest
      let (_, rest) ← readFixed 2 0 59 (← skipMark ':' rest)
      return rest
    else none
  | [] => none

/-- The time behind a date. -/
def skipDateTime (cs : List Char) : Option (List Char) :=
  match cs with
  | c :: rest =>
    if c = 'T' ∨ c = 't' ∨ c = ' ' then
      (skipTime rest).map fun rest => (skipOffset rest).getD rest
    else none
  | [] => none

def skipMoment (cs : List Char) : Option (List Char) :=
  match skipDate cs with
  | some rest => some ((skipDateTime rest).getD rest)
  | none => skipTime cs

/-! ## Numbers -/

/-- Digits, single underscores being allowed between them. -/
def takeMoreDigits (isDigit : Char → Bool) : List Char → List Char × List Char
  | '_' :: c :: rest =>
    if isDigit c then
      let (digits, rest) := takeMoreDigits isDigit rest
      (c :: digits, rest)
    else ([], '_' :: c :: rest)
  | c :: rest =>
    if isDigit c then
      let (digits, rest) := takeMoreDigits isDigit rest
      (c :: digits, rest)
    else ([], c :: rest)
  | [] => ([], [])

def readDigits (isDigit : Char → Bool) : Reader (List Char)
  | c :: rest =>
    if isDigit c then
      let (digits, rest) := takeMoreDigits isDigit rest
      some (c :: digits, rest)
    else none
  | [] => none

/-- Decimal digits without superfluous zeros in front. -/
def readWhole : Reader (List Char)
  | '0' :: rest => some (['0'], rest)
  | cs => readDigits isDecimal cs

/-- The sign in front of a number, whether it is a minus. -/
def takeSign : List Char → Bool × List Char
  | '-' :: rest => (true, rest)
  | '+' :: rest => (false, rest)
  | cs => (false, cs)

/-- The exponent of a number, from its letter on. -/
def readExponent (cs : List Char) : Option (Int × List Char) :=
  match cs with
  | c :: rest =>
    if c = 'e' ∨ c = 'E' then
      let (negative, rest) := takeSign rest
      match readDigits isDecimal rest with
      | some (digits, rest) =>
        (numberIn? 10 digits).map fun n => (if negative then -(n : Int) else n, rest)
      | none => none
    else none
  | [] => none

/-- A number with a fraction or an exponent. Above the double-precision range only negative ones
are numbers. -/
def skipFloat (cs : List Char) : Option (List Char) := do
  let (negative, cs) := takeSign cs
  let (whole, cs) ← readWhole cs
  let (fraction, exponent, rest) ← match cs with
    | '.' :: cs => do
      let (fraction, cs) ← readDigits isDecimal cs
      match readExponent cs with
      | some (exponent, rest) => pure (fraction, exponent, rest)
      | none => pure (fraction, 0, cs)
    | cs => (readExponent cs).map fun (exponent, rest) => ([], exponent, rest)
  let digits ← numberIn? 10 (whole ++ fraction)
  if negative || Decimal.isFinite digits (exponent - fraction.length) then return rest else none

/-- Infinity and the value that is no number. -/
def skipSpecial (cs : List Char) : Option (List Char) :=
  match (takeSign cs).2 with
  | 'i' :: 'n' :: 'f' :: rest => some rest
  | 'n' :: 'a' :: 'n' :: rest => some rest
  | _ => none

/-- The bases that a zero and a letter announce. -/
def baseOf? (letter : Char) : Option Nat :=
  [('x', 16), ('o', 8), ('b', 2)].lookup letter

/-- An integer of 64 bits. -/
def skipInteger (cs : List Char) : Option (List Char) := do
  let (negative, unsigned) := takeSign cs
  let (base, digits, rest) ← match cs with
    | '0' :: letter :: more =>
      match baseOf? letter with
      | some base => (readDigits (Text.isDigitIn base) more).map fun (ds, rest) => (base, ds, rest)
      | none => some (10, ['0'], letter :: more)
    | _ => (readWhole unsigned).map fun (ds, rest) => (10, ds, rest)
  let n ← numberIn? base digits
  if n < Nat.pow 2 63 ∨ (negative ∧ n = Nat.pow 2 63) then return rest else none

/-- Passes over a number, a date or a time. -/
def skipQuantity (cs : List Char) : Option (List Char) :=
  skipMoment cs <|> skipFloat cs <|> skipSpecial cs <|> skipInteger cs

end Toml
end SchemaScript
