import SchemaScript.Toml.Quantity
import SchemaScript.Toml.Value

/-!
# SchemaScript.Toml.Reader

The reading of TOML documents: values, and lines that add values to tables or open tables.
-/

namespace SchemaScript
namespace Toml

/-- Passes over a word. -/
def skipWord (word : String) (cs : List Char) : Option (List Char) :=
  if word.toList.isPrefixOf cs then some (cs.drop word.length) else none

mutual

/-- A value with at most `depth` arrays and tables inside each other. -/
def readValue : Nat → Nat → Reader Value
  | 0, _, _ => none
  | steps + 1, depth, cs =>
    match cs with
    | '"' :: rest => (readString '"' rest).map fun (s, rest) => (.string s, rest)
    | '\'' :: rest => (readString '\'' rest).map fun (s, rest) => (.string s, rest)
    | 't' :: _ => (skipWord "true" cs).map fun rest => (.bool true, rest)
    | 'f' :: _ => (skipWord "false" cs).map fun rest => (.bool false, rest)
    | '[' :: rest =>
      if depth = 0 then none
      else (readItems steps (depth - 1) rest).map fun (items, rest) => (.array items, rest)
    | '\x7b' :: rest =>
      if depth = 0 then none
      else
        match skipBlanks rest with
        | '\x7d' :: rest => some (.table .braced [], rest)
        | rest =>
          (readPairs steps (depth - 1) [] rest).map fun (ms, rest) => (.table .braced ms, rest)
    | cs =>
      (skipQuantity cs).map fun rest =>
        (.quantity (String.ofList (cs.take (cs.length - rest.length))), rest)

/-- The items of an array, from behind its bracket or a comma on. -/
def readItems : Nat → Nat → Reader (List Value)
  | 0, _, _ => none
  | steps + 1, depth, cs =>
    match skipGap (cs.length + 1) cs with
    | ']' :: rest => some ([], rest)
    | cs =>
      match readValue steps depth cs with
      | none => none
      | some (v, rest) =>
        match skipGap (rest.length + 1) rest with
        | ',' :: rest => (readItems steps depth rest).map fun (vs, rest) => (v :: vs, rest)
        | ']' :: rest => some ([v], rest)
        | _ => none

/-- The members of a table in braces on top of those before, at least one. -/
def readPairs : Nat → Nat → Members → Reader Members
  | 0, _, _, _ => none
  | steps + 1, depth, ms, cs =>
    match readKey cs with
    | some ((path, name), '=' :: rest) =>
      match readValue steps depth (skipBlanks rest) with
      | none => none
      | some (v, rest) =>
        match ms.insertAt true path name v, skipBlanks rest with
        | some ms, ',' :: rest => readPairs steps depth ms rest
        | some ms, '\x7d' :: rest => some (ms, rest)
        | _, _ => none
    | _ => none

end

/-- What the lines so far have built and the way to the table that they add to. -/
structure Draft where
  root : Members
  path : List String

namespace Draft

/-- A value for a key in the current table. -/
def readMember (d : Draft) (cs : List Char) : Option (Draft × List Char) :=
  match readKey cs with
  | some ((path, name), '=' :: rest) =>
    match readValue (2 * cs.length + 2) (depthLimit - 1) (skipBlanks rest) with
    | none => none
    | some (v, rest) =>
      (Members.changeAt d.path (Members.insertAt true path name v) d.root).map fun root =>
        (⟨root, d.path⟩, rest)
  | _ => none

/-- A header, from behind its bracket on. -/
def readHeader (d : Draft) (cs : List Char) : Option (Draft × List Char) :=
  let isElement := cs.head? = some '['
  let closing := if isElement then "]]" else "]"
  match readKey (if isElement then cs.tail else cs) with
  | none => none
  | some ((path, name), rest) =>
    match skipWord closing rest with
    | none => none
    | some rest =>
      let open? (ms : Members) := if isElement then ms.openElement name else ms.openTable name
      (Members.changeAt path open? d.root).map fun root => (⟨root, path ++ [name]⟩, rest)

/-- A line, from its first character that is no blank on. -/
def readLine (d : Draft) (cs : List Char) : Option (Draft × List Char) :=
  match cs with
  | '[' :: rest => d.readHeader rest
  | c :: _ => if c = '#' ∨ c = '\n' ∨ c = '\r' then some (d, cs) else d.readMember cs
  | [] => some (d, cs)

def readLines : Nat → Draft → List Char → Option Draft
  | 0, _, _ => none
  | _ + 1, d, [] => some d
  | steps + 1, d, cs =>
    match d.readLine (skipBlanks cs) with
    | none => none
    | some (d, rest) =>
      match endLine rest with
      | none => none
      | some rest => readLines steps d rest

end Draft

/-- The members of a document, which may begin with a byte order mark. -/
def read (text : String) : Option Members :=
  let cs := match text.toList with
    | '\ufeff' :: rest => rest
    | cs => cs
  (Draft.readLines (cs.length + 1) ⟨[], []⟩ cs).map (·.root)

end Toml
end SchemaScript
