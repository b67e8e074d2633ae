import SchemaScript.Json.Fault
import SchemaScript.Text.Hex

/-!
# SchemaScript.Json.Lexeme

Readers for the lexemes of JSON: blanks, words, strings and numbers.

A reader consumes a first part of the text and returns what is left of it. Numbers outside the
64-bit integers become double-precision numbers: the first digits that fit into 64 bits are kept
exactly and then scaled by a power of ten, one rounding for each step.
-/

namespace SchemaScript
namespace Json

abbrev Reader (α : Type) := List Char → Except Fault (α × List Char)

def fail {α : Type} (cause : Cause) (rest : List Char) (ahead : Nat) : Except Fault α :=
  .error ⟨cause, ⟨rest, ahead⟩⟩

def isSpace (c : Char) : Bool :=
  c == ' ' || c == '\n' || c == '\t' || c == '\r'

def skipSpace (s : List Char) : List Char :=
  s.dropWhile isSpace

/-- Reads exactly the given characters. -/
def readWord : List Char → Reader Unit
  | [], s => .ok ((), s)
  | _ :: _, [] => fail .endInValue [] 0
  | c :: word, d :: rest =>
    if c = d then readWord word rest else fail .expectedWord (d :: rest) 1

/-! ## Strings -/

/-- The number of bytes of a text. -/
def byteCount (s : List Char) : Nat :=
  s.foldl (fun n c => n + c.utf8Size) 0

/-- Four hexadecimal digits. -/
def readHex4 (s : List Char) : Except Fault (Nat × List Char) :=
  match s with
  | a :: b :: c :: d :: rest =>
    match Text.hexNumber? [a, b, c, d] with
    | some n => .ok (n, rest)
    | none => fail .invalidEscape s 4
  | s => if 4 ≤ byteCount s then fail .invalidEscape s 4 else fail .endInString [] 0

def isHighSurrogate (n : Nat) : Bool :=
  0xD800 ≤ n && n ≤ 0xDBFF

def isLowSurrogate (n : Nat) : Bool :=
  0xDC00 ≤ n && n ≤ 0xDFFF

/-- The second half of a surrogate pair, from its backslash on. -/
def readLowSurrogate (high : Nat) : Reader Char
  | [] => fail .endInString [] 0
  | '\\' :: [] => fail .endInString [] 0
  | '\\' :: 'u' :: rest =>
    match readHex4 rest with
    | .error f => .error f
    | .ok (low, rest) =>
      if isLowSurrogate low then
        .ok (Char.ofNat ((high - 0xD800) * 0x400 + (low - 0xDC00) + 0x10000), rest)
      else fail .loneSurrogate rest 0
  | '\\' :: rest => fail .endOfEscape rest 1
  | rest => fail .endOfEscape rest 1

/-- The character of a `\u` escape, from its digits on. -/
def readCodeUnit (s : List Char) : Except Fault (Char × List Char) :=
  match readHex4 s with
  | .error f => .error f
  | .ok (n, rest) =>
    if isLowSurrogate n then fail .loneSurrogate rest 0
    else if isHighSurrogate n then readLowSurrogate n rest
    else .ok (Char.ofNat n, rest)

/-- The character that an escape stands for, from behind its backslash on. -/
def readEscape : Reader Char
  | [] => fail .endInString [] 0
  | '"' :: rest => .ok ('"', rest)
  | '\\' :: rest => .ok ('\\', rest)
  | '/' :: rest => .ok ('/', rest)
  | 'b' :: rest => .ok ('\x08', rest)
  | 'f' :: rest => .ok ('\x0c', rest)
  | 'n' :: rest => .ok ('\n', rest)
  | 'r' :: rest => .ok ('\r', rest)
  | 't' :: rest => .ok ('\t', rest)
  | 'u' :: rest => readCodeUnit rest
  | rest => fail .invalidEscape rest 1

/-- The characters of a string up to its closing quote, in at most `steps` steps. -/
def readStringChars : Nat → Reader (List Char)
  | 0, _ => fail .endInString [] 0
  | _ + 1, [] => fail .endInString [] 0
  | _ + 1, '"' :: rest => .ok ([], rest)
  | steps + 1, '\\' :: rest =>
    match readEscape rest with
    | .error f => .error f
    | .ok (c, rest) =>
      match readStringChars steps rest with
      | .error f => .error f
      | .ok (cs, rest) => .ok (c :: cs, rest)
  | steps + 1, c :: rest =>
    if c.toNat < 32 then fail .controlInString rest 0
    else
      match readStringChars steps rest with
      | .error f => .error f
      | .ok (cs, rest) => .ok (c :: cs, rest)

/-- A string, from behind its opening quote on. -/
def readString (s : List Char) : Except Fault (String × List Char) :=
  match readStringChars (s.length + 1) s with
  | .error f => .error f
  | .ok (cs, rest) => .ok (String.ofList cs, rest)

/-- Passes over an escape without asking which character it stands for. -/
def skipEscape : Reader Unit
  | [] => fail .endInString [] 0
  | 'u' :: rest =>
    match readHex4 rest with
    | .error f => .error f
    | .ok (_, rest) => .ok ((), rest)
  | c :: rest =>
    if c ∈ ['"', '\\', '/', 'b', 'f', 'n', 'r', 't'] then .ok ((), rest)
    else fail .invalidEscape (c :: rest) 1

def skipStringChars : Nat → Reader Unit
  | 0, _ => fail .endInString [] 0
  | _ + 1, [] => fail .endInString [] 0
  | _ + 1, '"' :: rest => .ok ((), rest)
  | steps + 1, '\\' :: rest =>
    match skipEscape rest with
    | .error f => .error f
    | .ok (_, rest) => skipStringChars steps rest
  | steps + 1, c :: rest =>
    if c.toNat < 32 then fail .controlInString (c :: rest) 0 else skipStringChars steps rest

/-- Passes over a string, from behind its opening quote on. -/
def skipString (s : List Char) : Except Fault (Unit × List Char) :=
  skipStringChars (s.length + 1) s

/-! ## Numbers -/

def isDigit (c : Char) : Bool :=
  '0' ≤ c && c ≤ '9'

def digitValue (c : Char) : Nat :=
  c.toNat - 48

/-- Takes digits behind `n` as long as the number stays within `limit`; the digits that did not
fit come second. -/
def takeDigits (limit n : Nat) : List Char → Nat × List Char
  | [] => (n, [])
  | c :: rest =>
    if isDigit c ∧ 10 * n + digitValue c ≤ limit then takeDigits limit (10 * n + digitValue c) rest
    else (n, c :: rest)

def largestNatural : Nat := Nat.pow 2 64 - 1

def largestExponent : Nat := Nat.pow 2 31 - 1

/-- `significand * 10 ^ exponent` in double precision, `none` when it is out of range. -/
def scaleDouble : Nat → Float → Int → Option Float
  | 0, f, _ => some f
  | steps + 1, f, exponent =>
    if exponent.natAbs ≤ 308 then
      let power := Float.ofScientific 1 false exponent.natAbs
      if 0 ≤ exponent then
        let g := f * power
        if g.isInf then none else some g
      else some (f / power)
    else if f == 0.0 then some f
    else if 0 ≤ exponent then none
    else scaleDouble steps (f / 1e308) (exponent + 308)

/-- The double with the given sign, digits and power of ten, read up to `rest`. -/
def readDouble (positive : Bool) (significand : Nat) (exponent : Int) (rest : List Char) :
    Except Fault (Number × List Char) :=
  match scaleDouble 8 (Float.ofScientific significand false 0) exponent with
  | none => fail .numberOutOfRange rest 0
  | some f => .ok (.double (if positive then f else -f).toBits, rest)

/-- Whether an exponent raises the number, and its digits. -/
def exponentSign (s : List Char) : Bool × List Char :=
  match s with
  | '+' :: rest => (true, rest)
  | '-' :: rest => (false, rest)
  | rest => (true, rest)

/-- The exponent of a number, from behind its sign on. -/
def readExponentDigits (positive : Bool) (significand : Nat) (scale : Int) (raise : Bool)
    (digits : List Char) : Except Fault (Number × List Char) :=
  match digits with
  | [] => fail .endInValue [] 0
  | c :: rest =>
    if isDigit c then
      let (size, rest) := takeDigits largestExponent (digitValue c) rest
      match rest with
      | d :: more =>
        if isDigit d then
          if significand ≠ 0 ∧ raise then fail .numberOutOfRange more 0
          else .ok (.double (if positive then 0.0 else -0.0 : Float).toBits,
            more.dropWhile isDigit)
        else readDouble positive significand (if raise then scale + size else scale - size) rest
      | [] => readDouble positive significand (if raise then scale + size else scale - size) rest
    else fail .invalidNumber (c :: rest) 1

/-- The exponent of a number, from behind its letter on. -/
def readExponent (positive : Bool) (significand : Nat) (scale : Int) (s : List Char) :
    Except Fault (Number × List Char) :=
  let (raise, digits) := exponentSign s
  readExponentDigits positive significand scale raise digits

/-- An optional exponent. -/
def readScaled (positive : Bool) (significand : Nat) (scale : Int) (s : List Char) :
    Except Fault (Number × List Char) :=
  match s with
  | 'e' :: rest => readExponent positive significand scale rest
  | 'E' :: rest => readExponent positive significand scale rest
  | s => readDouble positive significand scale s

/-- The digits behind the point, at least one, and an optional exponent. -/
def readFraction (positive : Bool) (significand : Nat) (scale : Int) (s : List Char) :
    Except Fault (Number × List Char) :=
  match s with
  | [] => fail .endInValue [] 0
  | c :: _ =>
    if isDigit c then
      let (n, rest) := takeDigits largestNatural significand s
      readScaled positive n (scale - (s.length - rest.length : Nat)) (rest.dropWhile isDigit)
    else fail .invalidNumber s 1

/-- A number without fraction and exponent. -/
def wholeNumber (positive : Bool) (significand : Nat) : Number :=
  if positive then .natural significand
  else if 0 < significand ∧ significand ≤ Nat.pow 2 63 then .negative significand
  else .double (-Float.ofScientific significand false 0).toBits

/-- What may follow the integer digits. -/
def readNumberTail (positive : Bool) (significand : Nat) (s : List Char) :
    Except Fault (Number × List Char) :=
  match s with
  | '.' :: rest => readFraction positive significand 0 rest
  | 'e' :: rest => readExponent positive significand 0 rest
  | 'E' :: rest => readExponent positive significand 0 rest
  | s => .ok (wholeNumber positive significand, s)

/-- A number from behind the integer digits that fit on, of which there may be more. -/
def readLong (positive : Bool) (significand : Nat) (s : List Char) :
    Except Fault (Number × List Char) :=
  match s.takeWhile isDigit with
  | [] => readNumberTail positive significand s
  | dropped =>
    let scale : Int := dropped.length
    match s.dropWhile isDigit with
    | '.' :: more => readFraction positive significand scale more
    | more => readScaled positive significand scale more

/-- A number, from behind its sign on. -/
def readNumber (positive : Bool) (s : List Char) : Except Fault (Number × List Char) :=
  match s with
  | [] => fail .endInValue [] 0
  | '0' :: rest =>
    match rest with
    | c :: _ => if isDigit c then fail .invalidNumber rest 1 else readNumberTail positive 0 rest
    | [] => readNumberTail positive 0 rest
  | c :: rest =>
    if isDigit c then
      let (n, tail) := takeDigits largestNatural (digitValue c) rest
      readLong positive n tail
    else fail .invalidNumber (c :: rest) 1

/-- Passes over an exponent, from behind its letter on. -/
def skipExponent (s : List Char) : Except Fault (Unit × List Char) :=
  let digits := match s with
    | '+' :: rest => rest
    | '-' :: rest => rest
    | rest => rest
  match digits with
  | [] => fail .invalidNumber [] 0
  | c :: rest =>
    if isDigit c then .ok ((), rest.dropWhile isDigit) else fail .invalidNumber (c :: rest) 1

/-- Passes over a fraction, from behind the point on. -/
def skipFraction (s : List Char) : Except Fault (Unit × List Char) :=
  match s with
  | [] => fail .invalidNumber [] 0
  | c :: _ =>
    if isDigit c then
      match s.dropWhile isDigit with
      | 'e' :: rest => skipExponent rest
      | 'E' :: rest => skipExponent rest
      | rest => .ok ((), rest)
    else fail .invalidNumber s 1

def skipNumberTail (s : List Char) : Except Fault (Unit × List Char) :=
  match s with
  | '.' :: rest => skipFraction rest
  | 'e' :: rest => skipExponent rest
  | 'E' :: rest => skipExponent rest
  | rest => .ok ((), rest)

/-- Passes over a number, from behind its sign on, whatever its size. -/
def skipNumber (s : List Char) : Except Fault (Unit × List Char) :=
  match s with
  | [] => fail .invalidNumber [] 0
  | '0' :: rest =>
    match rest with
    | c :: _ => if isDigit c then fail .invalidNumber rest 1 else skipNumberTail rest
    | [] => skipNumberTail rest
  | c :: rest =>
    if isDigit c then skipNumberTail (rest.dropWhile isDigit)
    else fail .invalidNumber (c :: rest) 1

end Json
end SchemaScript
