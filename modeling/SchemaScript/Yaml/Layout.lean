import SchemaScript.Yaml.Token

/-!
# SchemaScript.Yaml.Layout

From a text to its tokens. Indentation opens and closes the block collections, and a colon makes a
key of what stands before it on its line; the tokens for these are put in where the collection or
the key began.
-/

namespace SchemaScript
namespace Yaml

/-- A place where a key may have begun. -/
structure KeyStart where
  /-- Whether nothing but a key can stand here. -/
  required : Bool
  /-- The number of tokens before it. -/
  count : Nat
  index : Nat
  line : Nat
  column : Nat

/-- The state of reading tokens: the open places for keys, the innermost flow collection first and
the block collections last, and the columns of the block collections. -/
structure Layout where
  cursor : Cursor
  keys : List (Option KeyStart)
  indent : Int
  outerIndents : List Int
  keyAllowed : Bool
  tokens : Array Token

namespace Layout

def start (text : List Char) : Layout :=
  ⟨Cursor.start text, [none], -1, [], true, #[]⟩

def inFlow (l : Layout) : Bool :=
  1 < l.keys.length

def column (l : Layout) : Int :=
  l.cursor.column

def push (l : Layout) (t : Token) : Layout :=
  { l with tokens := l.tokens.push t }

def allowKey (l : Layout) (allowed : Bool) : Layout :=
  { l with keyAllowed := allowed }

/-! ## Places for keys -/

/-- Gives up the innermost place for a key. -/
def dropKey (l : Layout) : Option Layout :=
  match l.keys with
  | some k :: rest => if k.required then none else some { l with keys := none :: rest }
  | _ => some l

/-- Remembers that a key may begin here. -/
def saveKey (l : Layout) : Option Layout :=
  if !l.keyAllowed then some l
  else
    match l.dropKey with
    | none => none
    | some l =>
      let c := l.cursor
      let k := ⟨!l.inFlow && l.indent == l.column, l.tokens.size, c.index, c.line, c.column⟩
      some { l with keys := some k :: l.keys.tail }

/-- Whether a key that began there would span lines or more than 1024 characters. -/
def isStale (c : Cursor) (k : KeyStart) : Bool :=
  k.line < c.line || k.index + 1024 < c.index

/-- Gives up the places that are too far away. -/
def dropStaleKeys (l : Layout) : Option Layout :=
  let stale (k : KeyStart) : Bool := isStale l.cursor k
  if l.keys.any fun k => k.any fun k => stale k && k.required then none
  else some { l with keys := l.keys.map fun k => k.filter fun k => !stale k }

/-! ## Indentation -/

/-- Opens a block collection at a column if it lies deeper, with its token at the given place. -/
def openBlock (l : Layout) (column : Int) (place : Nat) (t : Token) : Layout :=
  if l.inFlow ∨ column ≤ l.indent then l
  else
    { l with
      indent := column
      outerIndents := l.indent :: l.outerIndents
      tokens := l.tokens.insertIdxIfInBounds place t }

def openBlockHere (l : Layout) (t : Token) : Layout :=
  l.openBlock l.column l.tokens.size t

/-- The block collections that stay open at a column, and the number of those that do not. -/
def closedAt (column : Int) : Int → List Int → Int × List Int × Nat
  | indent, [] => (indent, [], 0)
  | indent, outer :: rest =>
    if column < indent then
      let (indent, outer, count) := closedAt column outer rest
      (indent, outer, count + 1)
    else (indent, outer :: rest, 0)

/-- Closes the block collections that lie deeper than a column. -/
def closeBlocks (l : Layout) (column : Int) : Layout :=
  if l.inFlow then l
  else
    let (indent, outer, count) := closedAt column l.indent l.outerIndents
    { l with
      indent := indent
      outerIndents := outer
      tokens := l.tokens ++ Array.replicate count .blockEnd }

/-! ## Tokens -/

/-- Passes over blanks, comments and line ends. -/
def skipGap : Nat → Layout → Layout
  | 0, l => l
  | steps + 1, l =>
    let c := l.cursor
    let c := if c.column = 0 ∧ c.faces '\ufeff' then c.skip else c
    let c := c.skipWhile fun d => d == ' ' || ((l.inFlow || !l.keyAllowed) && d == '\t')
    let c := if c.faces '#' then c.skipWhile (fun d => !isBreak d) else c
    match c.rest with
    | [] => { l with cursor := c }
    | d :: _ =>
      if isBreak d then
        skipGap steps { l with cursor := c.skipBreak, keyAllowed := l.keyAllowed || !l.inFlow }
      else { l with cursor := c }

def skip (l : Layout) (n : Nat) : Layout :=
  { l with cursor := l.cursor.skipMany n }

/-- What stands outside of all collections: rules and the marks between documents. -/
def outside (l : Layout) (token : Option (Token × Cursor)) : Option Layout :=
  match (l.closeBlocks (-1)).dropKey, token with
  | some l, some (t, c) => some ({ l with cursor := c, keyAllowed := false }.push t)
  | _, _ => none

/-- What a key can begin with, apart from flow collections. -/
def content (l : Layout) (token : Option (Token × Cursor)) : Option Layout :=
  match l.saveKey, token with
  | some l, some (t, c) => some ({ l with cursor := c, keyAllowed := false }.push t)
  | _, _ => none

def openFlow (l : Layout) (t : Token) : Option Layout :=
  l.saveKey.map fun l => ({ l with keys := none :: l.keys, keyAllowed := true }.skip 1).push t

def closeFlow (l : Layout) (t : Token) : Option Layout :=
  l.dropKey.map fun l =>
    let keys := if l.inFlow then l.keys.tail else l.keys
    ({ l with keys := keys, keyAllowed := false }.skip 1).push t

def flowEntry (l : Layout) : Option Layout :=
  l.dropKey.map fun l => ((l.allowKey true).skip 1).push .flowEntry

/-- A mark that opens a block collection where it is the first of its kind. -/
def blockMark (l : Layout) (collection mark : Token) (allowKey : Bool) : Option Layout :=
  if !l.inFlow && !l.keyAllowed then none
  else
    (l.openBlockHere collection).dropKey.map fun l => ((l.allowKey allowKey).skip 1).push mark

/-- A colon: what stands before it on the line is a key, if a key can begin there. -/
def colon (l : Layout) : Option Layout :=
  match l.keys with
  | some k :: rest =>
    let l := { l with keys := none :: rest, tokens := l.tokens.insertIdxIfInBounds k.count .key }
    some (((l.openBlock k.column k.count .blockMapping).allowKey false |>.skip 1).push .value)
  | _ => l.blockMark .blockMapping .value (!l.inFlow)

/-- A text over several lines, from behind its indicator on. -/
def block (l : Layout) (style : Style) : Option Layout :=
  match l.dropKey, readBlock (style == .literal) l.indent l.cursor.skip with
  | some l, some (text, c) =>
    some ({ l with cursor := c, keyAllowed := true }.push (.scalar style (String.ofList text)))
  | _, _ => none

def quoted (l : Layout) (style : Style) : Option Layout :=
  let c := l.cursor.skip
  l.content ((readQuoted (style == .singleQuoted) (c.rest.length + 1) [] c).map fun (text, c) =>
    (.scalar style (String.ofList text.reverse), c))

def plain (l : Layout) : Option Layout :=
  let c := l.cursor
  match l.saveKey, readPlain l.inFlow (l.indent + 1) (c.rest.length + 1) [] Gap.empty c with
  | some l, some (text, crossesLine, c) =>
    some ({ l with cursor := c, keyAllowed := crossesLine }.push
      (.scalar .plain (String.ofList text.reverse)))
  | _, _ => none

/-- Whether a plain scalar can begin with a character in front of the given text. -/
def startsPlain (inFlow : Bool) (d : Char) (rest : List Char) : Bool :=
  !(isBlank d || isBreak d || "-?:,[]\x7b\x7d#&*!|>'\"%@\x60".toList.contains d) ||
    (d == '-' && !atGap rest) ||
    (!inFlow && (d == '?' || d == ':') && !atGap rest)

/-- The token at the cursor. -/
def token (l : Layout) (d : Char) (rest : List Char) : Option Layout :=
  let c := l.cursor
  let named (make : String → Token) : Option Layout :=
    l.content ((readAnchor c.skip).map fun (name, c) => (make name, c))
  if c.column = 0 ∧ d = '%' then l.outside (readRule c)
  else if c.atDocumentMark '-' then l.outside (some (.documentStart, c.skipMany 3))
  else if c.atDocumentMark '.' then l.outside (some (.documentEnd, c.skipMany 3))
  else if d = '[' then l.openFlow .flowSequence
  else if d = '\x7b' then l.openFlow .flowMapping
  else if d = ']' then l.closeFlow .flowSequenceEnd
  else if d = '\x7d' then l.closeFlow .flowMappingEnd
  else if d = ',' then l.flowEntry
  else if d = '-' ∧ atGap rest then l.blockMark .blockSequence .blockEntry true
  else if d = '?' ∧ (l.inFlow ∨ atGap rest) then l.blockMark .blockMapping .key (!l.inFlow)
  else if d = ':' ∧ (l.inFlow ∨ atGap rest) then l.colon
  else if d = '*' then named .alias
  else if d = '&' then named .anchor
  else if d = '!' then l.content (readTag l.inFlow c)
  else if d = '|' ∧ !l.inFlow then l.block .literal
  else if d = '>' ∧ !l.inFlow then l.block .folded
  else if d = '\'' then l.quoted .singleQuoted
  else if d = '"' then l.quoted .doubleQuoted
  else if startsPlain l.inFlow d rest then l.plain
  else none

/-- All tokens of the text. -/
def run : Nat → Layout → Option (List Token)
  | 0, _ => none
  | steps + 1, l =>
    match (l.skipGap (l.cursor.rest.length + 1)).dropStaleKeys with
    | none => none
    | some l =>
      match l.cursor.rest with
      | [] => (l.closeBlocks (-1)).dropKey.map fun l => l.tokens.toList
      | d :: rest =>
        match (l.closeBlocks l.column).token d rest with
        | none => none
        | some l => run steps l

end Layout

/-- The tokens of a text. -/
def tokens? (text : List Char) : Option (List Token) :=
  (Layout.start text).run (text.length + 1)

end Yaml
end SchemaScript
