import SchemaScript.Text.Digits
import SchemaScript.Yaml.Cursor

/-!
# SchemaScript.Yaml.Scalar

Scalars of YAML texts in their five styles: plain, quoted in two ways, and blocks whose lines are
kept or folded. A single line end between two lines of text is a space, and of several line ends
all but the first are kept.
-/

namespace SchemaScript
namespace Yaml

/-- White space between two parts of a scalar: blanks of one line, or line ends. -/
structure Gap where
  blanks : List Char
  /-- The first line end. -/
  first : List Char
  /-- The further line ends. -/
  more : List Char
  crossesLine : Bool

namespace Gap

def empty : Gap :=
  ⟨[], [], [], false⟩

/-- What a gap amounts to in the text. -/
def text (g : Gap) : List Char :=
  if g.crossesLine then
    if g.first.head? = some '\n' then (if g.more.isEmpty then [' '] else g.more)
    else g.first ++ g.more
  else g.blanks

/-- Reads blanks and line ends on top of a gap. In a plain scalar a tab must not stand for the
indentation, and `indent` is given. -/
def read (indent : Option Int) : Nat → Gap → Cursor → Option (Gap × Cursor)
  | 0, g, c => some (g, c)
  | steps + 1, g, c =>
    match c.rest with
    | [] => some (g, c)
    | d :: _ =>
      if isBlank d then
        if g.crossesLine ∧ d = '\t' ∧ indent.any fun n => (c.column : Int) < n then none
        else
          read indent steps (if g.crossesLine then g else { g with blanks := g.blanks ++ [d] })
            c.skip
      else if isBreak d then
        if g.crossesLine then
          read indent steps { g with more := g.more ++ c.breakText } c.skipBreak
        else read indent steps ⟨[], c.breakText, [], true⟩ c.skipBreak
      else some (g, c)

end Gap

/-! ## Quoted scalars -/

/-- The character that an escape of a letter stands for. -/
def escapeOf? (c : Char) : Option Char :=
  [('0', '\x00'), ('a', '\x07'), ('b', '\x08'), ('t', '\t'), ('\t', '\t'), ('n', '\n'),
    ('v', '\x0b'), ('f', '\x0c'), ('r', '\r'), ('e', '\x1b'), (' ', ' '), ('"', '"'), ('/', '/'),
    ('\\', '\\'), ('N', '\u0085'), ('_', '\u00a0'), ('L', '\u2028'), ('P', '\u2029')].lookup c

/-- The number of digits behind the letter of an escape. -/
def escapeLength? (c : Char) : Option Nat :=
  [('x', 2), ('u', 4), ('U', 8)].lookup c

/-- An escape, from behind its backslash on, with the number of its characters. -/
def readEscape (cs : List Char) : Option (Char × Nat) :=
  match cs with
  | [] => none
  | c :: rest =>
    match escapeOf? c, escapeLength? c with
    | some d, _ => some (d, 1)
    | none, some n => (Text.readHexChar n rest).map fun (d, _) => (d, n + 1)
    | none, none => none

/-- The characters of a quoted scalar up to a gap or to the closing quote. The result says whether
an escaped line end was passed. -/
def readQuotedPart (single : Bool) :
    Nat → List Char → Cursor → Option (List Char × Bool × Cursor)
  | 0, _, _ => none
  | steps + 1, acc, c =>
    match c.rest with
    | [] => some (acc, false, c)
    | d :: rest =>
      if isBlank d ∨ isBreak d then some (acc, false, c)
      else if single ∧ d = '\'' then
        if rest.head? = some '\'' then readQuotedPart single steps ('\'' :: acc) (c.skipMany 2)
        else some (acc, false, c)
      else if !single ∧ d = '"' then some (acc, false, c)
      else if !single ∧ d = '\\' then
        if !rest.isEmpty ∧ atBreak rest then some (acc, true, c.skip.skipBreak)
        else
          match readEscape rest with
          | none => none
          | some (e, n) => readQuotedPart single steps (e :: acc) (c.skipMany (n + 1))
      else readQuotedPart single steps (d :: acc) c.skip

/-- A quoted scalar, from behind its opening quote on; its characters come in reverse. -/
def readQuoted (single : Bool) : Nat → List Char → Cursor → Option (List Char × Cursor)
  | 0, _, _ => none
  | steps + 1, acc, c =>
    if c.atAnyDocumentMark ∨ c.rest.isEmpty then none
    else
      match readQuotedPart single (c.rest.length + 1) acc c with
      | none => none
      | some (acc, crossed, c) =>
        if c.faces (if single then '\'' else '"') then some (acc, c.skip)
        else
          match Gap.read none (c.rest.length + 1) { Gap.empty with crossesLine := crossed } c with
          | none => none
          | some (g, c) => readQuoted single steps (g.text.reverse ++ acc) c

/-! ## Plain scalars -/

/-- Characters that end a plain scalar inside flow collections. -/
def isFlowMark (c : Char) : Bool :=
  c == ',' || c == '[' || c == ']' || c == '\x7b' || c == '\x7d'

/-- The characters of a plain scalar up to a gap or an indicator; `none` for a colon that neither
ends nor belongs to it. -/
def readPlainPart (inFlow : Bool) : Nat → Cursor → Option (List Char × Cursor)
  | 0, c => some ([], c)
  | steps + 1, c =>
    match c.rest with
    | [] => some ([], c)
    | d :: rest =>
      if isBlank d ∨ isBreak d then some ([], c)
      else if inFlow ∧ d = ':' ∧
          (rest.head?.map fun e => isFlowMark e || e == '?') = some true then none
      else if (d = ':' ∧ atGap rest) ∨ (inFlow ∧ isFlowMark d) then some ([], c)
      else
        match readPlainPart inFlow steps c.skip with
        | none => none
        | some (cs, c) => some (d :: cs, c)

/-- A plain scalar; its characters come in reverse, and the result says whether the cursor is behind
a line end. -/
def readPlain (inFlow : Bool) (indent : Int) :
    Nat → List Char → Gap → Cursor → Option (List Char × Bool × Cursor)
  | 0, _, _, _ => none
  | steps + 1, acc, gap, c =>
    if c.atAnyDocumentMark ∨ c.faces '#' then some (acc, gap.crossesLine, c)
    else
      match readPlainPart inFlow (c.rest.length + 1) c with
      | none => none
      | some (part, c) =>
        let acc := if part.isEmpty then acc else part.reverse ++ gap.text.reverse ++ acc
        let gap := if part.isEmpty then gap else Gap.empty
        let ended := match c.rest with
          | [] => true
          | d :: _ => !(isBlank d || isBreak d)
        if ended then some (acc, gap.crossesLine, c)
        else
          match Gap.read (some indent) (c.rest.length + 1) gap c with
          | none => none
          | some (gap, c) =>
            if !inFlow ∧ (c.column : Int) < indent then some (acc, gap.crossesLine, c)
            else readPlain inFlow indent steps acc gap c

/-! ## Blocks -/

inductive Chomping where
  | strip
  | clip
  | keep
deriving DecidableEq

def chomping? (c : Char) : Option Chomping :=
  if c = '+' then some .keep else if c = '-' then some .strip else none

/-- The chomping and the indentation in the header of a block, both optional, in either order. -/
def readHeader (c : Cursor) : Option (Chomping × Nat × Cursor) :=
  let digit? (d : Char) : Option Nat :=
    if '0' ≤ d ∧ d ≤ '9' then some (d.toNat - 48) else none
  match c.rest with
  | d :: rest =>
    match chomping? d, digit? d with
    | some chomping, _ =>
      match rest.head?.bind digit? with
      | some 0 => none
      | some n => some (chomping, n, c.skipMany 2)
      | none => some (chomping, 0, c.skip)
    | none, some 0 => none
    | none, some n =>
      match rest.head?.bind chomping? with
      | some chomping => some (chomping, n, c.skipMany 2)
      | none => some (.clip, n, c.skip)
    | none, none => some (.clip, 0, c)
  | [] => some (.clip, 0, c)

/-- Empty lines and the indentation of the line behind them. An indentation of zero is not known
yet; then the widest of the lines comes out. -/
def readBlockBreaks (indent : Nat) :
    Nat → Nat → List Char → Cursor → Option (Nat × List Char × Cursor)
  | 0, _, _, _ => none
  | steps + 1, widest, breaks, c =>
    let spaces := (c.rest.takeWhile (· == ' ')).length
    let c := c.skipMany (if indent = 0 then spaces else min spaces (indent - c.column))
    let widest := max widest c.column
    if (indent = 0 ∨ c.column < indent) ∧ c.faces '\t' then none
    else
      match c.rest with
      | [] => some (widest, breaks, c)
      | d :: _ =>
        if isBreak d then
          readBlockBreaks indent steps widest (breaks ++ c.breakText) c.skipBreak
        else some (widest, breaks, c)

/-- The lines of a block with the given indentation; the text comes in reverse. -/
def readBlockLines (literal : Bool) (indent : Nat) :
    Nat → List Char → List Char → List Char → Bool → Cursor →
      Option (List Char × List Char × List Char × Cursor)
  | 0, _, _, _, _, _ => none
  | steps + 1, acc, first, more, afterBlank, c =>
    if c.column ≠ indent ∨ c.rest.isEmpty then some (acc, first, more, c)
    else
      let startsBlank := (c.rest.head?.map isBlank) = some true
      let joint :=
        if !literal ∧ first.head? = some '\n' ∧ !afterBlank ∧ !startsBlank then
          (if more.isEmpty then [' '] else []) ++ more
        else first ++ more
      let line := c.rest.takeWhile fun d => !isBreak d
      let c := c.skipMany line.length
      let acc := line.reverse ++ joint.reverse ++ acc
      match c.rest with
      | [] => some (acc, [], [], c)
      | _ :: _ =>
        let first := c.breakText
        match readBlockBreaks indent (c.rest.length + 1) 0 [] c.skipBreak with
        | none => none
        | some (_, more, c) => readBlockLines literal indent steps acc first more startsBlank c

/-- A block, from behind its indicator on, inside a block of the given indentation. -/
def readBlock (literal : Bool) (outer : Int) (c : Cursor) : Option (List Char × Cursor) :=
  match readHeader c with
  | none => none
  | some (chomping, increment, c) =>
    let c := c.skipWhile isBlank
    let c := if c.faces '#' then c.skipWhile (fun d => !isBreak d) else c
    if !atBreak c.rest then none
    else
      let c := c.skipBreak
      let given := if increment = 0 then 0 else (max outer 0).toNat + increment
      match readBlockBreaks given (c.rest.length + 1) 0 [] c with
      | none => none
      | some (widest, breaks, c) =>
        let indent := if given = 0 then max (max widest (outer + 1).toNat) 1 else given
        match readBlockLines literal indent (c.rest.length + 1) [] [] breaks false c with
        | none => none
        | some (acc, first, more, c) =>
          let ending := match chomping with
            | .strip => []
            | .clip => first
            | .keep => first ++ more
          some (acc.reverse ++ ending, c)

end Yaml
end SchemaScript
