import SchemaScript.Text.Digits

/-!
# SchemaScript.Toml.Lexeme

Blanks, comments, strings and keys of TOML documents. A reader consumes a first part of the text and
returns what is left of it.
-/

namespace SchemaScript
namespace Toml

abbrev Reader (α : Type) := List Char → Option (α × List Char)

/-- Whether a character may stand in a comment or, apart from marks, in a string. -/
def isText (c : Char) : Bool :=
  c == '\t' || (0x20 ≤ c.val && c.val ≤ 0x7E) || 0x80 ≤ c.val

def isBlank (c : Char) : Bool :=
  c == ' ' || c == '\t'

def skipBlanks (cs : List Char) : List Char :=
  cs.dropWhile isBlank

/-- What follows a line end. -/
def afterBreak? : List Char → Option (List Char)
  | '\n' :: rest => some rest
  | '\r' :: '\n' :: rest => some rest
  | _ => none

def skipComment : List Char → List Char
  | '#' :: rest => rest.dropWhile isText
  | cs => cs

/-- Passes over blanks and a comment up to the end of the line. -/
def endLine (cs : List Char) : Option (List Char) :=
  match skipComment (skipBlanks cs) with
  | [] => some []
  | rest => afterBreak? rest

/-- Passes over blanks, comments and line ends. -/
def skipGap : Nat → List Char → List Char
  | 0, cs => cs
  | steps + 1, cs =>
    let cs := skipBlanks cs
    match afterBreak? (skipComment cs) with
    | some rest => skipGap steps rest
    | none => cs

/-- Passes over blanks and line ends. -/
def skipSpace : List Char → List Char
  | '\r' :: '\n' :: rest => skipSpace rest
  | c :: rest => if isBlank c ∨ c = '\n' then skipSpace rest else c :: rest
  | [] => []

/-! ## Strings -/

/-- The character of an escape, from behind its backslash on. -/
def readEscape : Reader Char
  | 'u' :: rest => Text.readHexChar 4 rest
  | 'U' :: rest => Text.readHexChar 8 rest
  | c :: rest =>
    ([('b', '\x08'), ('t', '\t'), ('n', '\n'), ('f', '\x0c'), ('r', '\r'), ('"', '"'),
      ('\\', '\\')].lookup c).map fun d => (d, rest)
  | [] => none

/-- A string on one line, from behind its quote on. Backslashes are escapes between double quotes
only. -/
def readLine (quote : Char) : Nat → Reader (List Char)
  | 0, _ => none
  | _ + 1, [] => none
  | steps + 1, c :: rest =>
    if c = quote then some ([], rest)
    else if c = '\\' ∧ quote = '"' then
      match readEscape rest with
      | none => none
      | some (d, rest) => (readLine quote steps rest).map fun (cs, rest) => (d :: cs, rest)
    else if isText c then
      (readLine quote steps rest).map fun (cs, rest) => (c :: cs, rest)
    else none

/-- A string over several lines, from behind its quotes on. Three quotes end it; up to two in front
of these belong to it. -/
def readLines (quote : Char) : Nat → Reader (List Char)
  | 0, _ => none
  | _ + 1, [] => none
  | steps + 1, c :: rest =>
    if c = quote then
      let quotes := (c :: rest).takeWhile (· == quote)
      let rest := rest.drop (quotes.length - 1)
      if quotes.length < 3 then
        (readLines quote steps rest).map fun (cs, rest) => (quotes ++ cs, rest)
      else if quotes.length ≤ 5 then some (quotes.drop 3, rest)
      else none
    else if c = '\\' ∧ quote = '"' then
      match afterBreak? (skipBlanks rest) with
      | some rest => readLines quote steps (skipSpace rest)
      | none =>
        match readEscape rest with
        | none => none
        | some (d, rest) => (readLines quote steps rest).map fun (cs, rest) => (d :: cs, rest)
    else
      match afterBreak? (c :: rest) with
      | some rest => (readLines quote steps rest).map fun (cs, rest) => ('\n' :: cs, rest)
      | none =>
        if isText c then
          (readLines quote steps rest).map fun (cs, rest) => (c :: cs, rest)
        else none

/-- A string in either form, from behind its first quote on. A line end right behind three opening
quotes is left out. -/
def readString (quote : Char) (cs : List Char) : Option (String × List Char) :=
  let chars := if cs.take 2 = [quote, quote] then
      let body := cs.drop 2
      readLines quote (cs.length + 1) ((afterBreak? body).getD body)
    else readLine quote (cs.length + 1) cs
  chars.map fun (cs, rest) => (String.ofList cs, rest)

/-! ## Keys -/

def isBareKeyChar (c : Char) : Bool :=
  ('0' ≤ c && c ≤ '9') || ('A' ≤ c && c ≤ 'Z') || ('a' ≤ c && c ≤ 'z') || c == '_' || c == '-'

def readKeyPart (cs : List Char) : Option (String × List Char) :=
  let quoted (quote : Char) (rest : List Char) : Option (String × List Char) :=
    (readLine quote (rest.length + 1) rest).map fun (name, rest) => (String.ofList name, rest)
  match cs with
  | '"' :: rest => quoted '"' rest
  | '\'' :: rest => quoted '\'' rest
  | cs =>
    let name := cs.takeWhile isBareKeyChar
    if name.isEmpty then none else some (String.ofList name, cs.dropWhile isBareKeyChar)

/-- The parts of a key between dots, with the blanks around them. -/
def readKeyParts : Nat → Reader (List String)
  | 0, _ => none
  | steps + 1, cs =>
    match readKeyPart (skipBlanks cs) with
    | none => none
    | some (part, rest) =>
      match skipBlanks rest with
      | '.' :: rest => (readKeyParts steps rest).map fun (parts, rest) => (part :: parts, rest)
      | rest => some ([part], rest)

/-- The bound on the parts of a key and on values inside each other; both stay below it. -/
def depthLimit : Nat := 80

/-- A key: the way to its table and its name there. -/
def readKey (cs : List Char) : Option ((List String × String) × List Char) :=
  match readKeyParts (depthLimit - 1) cs with
  | some (parts, rest) => (parts.getLast?).map fun name => ((parts.dropLast, name), rest)
  | none => none

end Toml
end SchemaScript
