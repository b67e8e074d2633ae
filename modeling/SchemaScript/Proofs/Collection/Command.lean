import SchemaScript.Collection.Shell
import SchemaScript.Json.Reader

/-!
# SchemaScript.Proofs.Collection.Command

A reader of shell scripts that knows the commands of which the scripts of collections are made.

* `commandTexts`: the texts of the commands. Two slashes open a comment, which goes on to the next
  line feed; a string ends at a quote without a backslash; brackets have to match; and a semicolon
  outside of comments and strings ends a command, for which all brackets have to be closed.
* `ShellCommand.ofChars?`: the command with the given text.
* `readShell`: the commands of a script, behind which only comments and white space may stand.
-/

namespace SchemaScript

/-! ## Where commands end -/

/-- What a reader of a script stands in. -/
inductive ShellState where
  | outside
  | comment
  | string
  /-- Inside of a string, behind a backslash. -/
  | escape
deriving DecidableEq, Repr

/-- The bracket that closes one opened by the character. -/
def closingOf? : Char → Option Char
  | '(' => some ')'
  | '[' => some ']'
  | '\x7b' => some '\x7d'
  | _ => none

/-- The closing brackets that are awaited behind a character, the next one first. -/
def awaitedBehind (awaited : List Char) (c : Char) : Option (List Char) :=
  match closingOf? c with
  | some closing => some (closing :: awaited)
  | none =>
    if c ∈ [')', ']', '\x7d'] then
      match awaited with
      | [] => none
      | closing :: awaited => if c = closing then some awaited else none
    else some awaited

/-- What has been read of a command, to which white space in front of it does not belong. -/
def keep (read : List Char) (c : Char) : List Char :=
  if read = [] ∧ Json.isSpace c = true then [] else c :: read

/-- The texts of the commands, without comments and without the white space in front of them.
Given are the closing brackets that are awaited and, in reverse, what has been read of a command. -/
def commandTexts : ShellState → List Char → List Char → List Char → Option (List (List Char))
  | .outside, awaited, read, [] => if awaited = [] ∧ read = [] then some [] else none
  | .outside, awaited, read, c :: rest =>
    if c = '/' ∧ rest.head? = some '/' then commandTexts .comment awaited read rest
    else if c = '"' then commandTexts .string awaited (c :: read) rest
    else if c = ';' then
      if awaited = [] then (commandTexts .outside [] [] rest).map (read.reverse :: ·) else none
    else
      match awaitedBehind awaited c with
      | none => none
      | some awaited => commandTexts .outside awaited (keep read c) rest
  | .comment, awaited, read, [] => if awaited = [] ∧ read = [] then some [] else none
  | .comment, awaited, read, c :: rest =>
    if c = '\n' then commandTexts .outside awaited (keep read c) rest
    else commandTexts .comment awaited read rest
  | .string, _, _, [] => none
  | .string, awaited, read, c :: rest =>
    if c = '"' then commandTexts .outside awaited (c :: read) rest
    else if c = '\\' then commandTexts .escape awaited (c :: read) rest
    else if c.toNat < 32 then none
    else commandTexts .string awaited (c :: read) rest
  | .escape, _, _, [] => none
  | .escape, awaited, read, c :: rest => commandTexts .string awaited (c :: read) rest

/-! ## What a command says -/

inductive ShellCommand where
  | createCollection (name : String) (schema : Json.Value)
  /-- The document is given by its text. -/
  | insertOne (collection document : String)
  | createIndex (collection field : String)
deriving Repr

/-- What follows the words, which may have white space in front of each. -/
def words? : List String → List Char → Option (List Char)
  | [], s => some s
  | word :: words, s => (word.toList.isPrefixOf? (Json.skipSpace s)).bind (words? words)

/-- Whether an identifier may hold the character. -/
def isIdentifierChar (c : Char) : Bool :=
  c.isAlphanum || c = '_' || c = '$'

/-- The identifier at the start of the text. -/
def identifier? (s : List Char) : Option (String × List Char) :=
  match s.takeWhile isIdentifierChar with
  | [] => none
  | c :: cs =>
    if c.isDigit then none else some (String.ofList (c :: cs), s.dropWhile isIdentifierChar)

/-- The text of a string, which may have white space in front of it. -/
def string? (s : List Char) : Option (String × List Char) :=
  (words? ["\""] s).bind fun s => (Json.readString s).toOption

namespace ShellCommand

/-- From behind the opening bracket of a call of `createCollection`. -/
def create? (s : List Char) : Option ShellCommand := do
  let (name, s) ← string? s
  let s ← words? [",", "\x7b", "validator", ":", "\x7b", "$jsonSchema", ":"] s
  let (schema, s) ← (Json.readValue Json.largestDepth s).toOption
  let s ← words? ["\x7d", "\x7d", ")"] s
  if Json.skipSpace s = [] then some (.createCollection name schema) else none

/-- From behind the opening bracket of a call of `insertOne`. -/
def insert? (collection : String) (s : List Char) : Option ShellCommand :=
  if s.getLast? = some ')' then some (.insertOne collection (String.ofList s.dropLast)) else none

/-- From behind the opening bracket of a call of `createIndex`. -/
def index? (collection : String) (s : List Char) : Option ShellCommand := do
  let s ← words? ["\x7b"] s
  let (field, s) ← string? s
  let s ← words? [":", "1", "\x7d", ")"] s
  if Json.skipSpace s = [] then some (.createIndex collection field) else none

/-- From behind the expression for a collection. -/
def method? (collection : String) (s : List Char) : Option ShellCommand := do
  let s ← words? ["."] s
  let (method, s) ← identifier? s
  let s ← words? ["("] s
  if method = "insertOne" then insert? collection s
  else if method = "createIndex" then index? collection s
  else none

/-- The command with the given text. A name behind the database is a collection unless it is
called, and what is called are the two functions of a database. -/
def ofChars? (s : List Char) : Option ShellCommand := do
  let s ← words? ["db", "."] s
  let (name, s) ← identifier? s
  match words? ["("] s with
  | none => method? name s
  | some s =>
    if name = "createCollection" then create? s
    else if name = "getCollection" then do
      let (name, s) ← string? s
      let s ← words? [")"] s
      method? name s
    else none

end ShellCommand

/-- The commands of a script. -/
def readShell (script : String) : Option (List ShellCommand) :=
  (commandTexts .outside [] [] script.toList).bind fun texts => texts.mapM ShellCommand.ofChars?

end SchemaScript
