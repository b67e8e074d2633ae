import SchemaScript.Yaml.Token

/-!
# SchemaScript.Yaml.Tree

The tree that a list of tokens describes. A place without a node holds an empty plain scalar; in
the flow style a pair inside a sequence is a mapping of its own.
-/

namespace SchemaScript
namespace Yaml

/-- What is left to read and what the nodes so far have named. -/
structure Draft where
  tokens : List Token
  /-- What the handles of tags stand for. -/
  handles : List (String × String)
  /-- The anchors with the numbers that aliases know them by. -/
  numbers : List (String × Nat)
  /-- The numbers of all anchored nodes with their places among them, the last one first. -/
  anchored : List (Nat × Nat)
  /-- The finished anchored nodes by their place among them. -/
  finished : List (Nat × Node)

/-- Steps of building a tree. -/
abbrev Builder := StateT Draft Option

namespace Builder

def peek : Builder (Option Token) := do
  return (← get).tokens.head?

def skip : Builder Unit :=
  modify fun d => { d with tokens := d.tokens.tail }

/-- Passes over a token if it comes next. -/
def accept (t : Token) : Builder Bool := do
  if (← peek) = some t then
    skip
    return true
  else return false

/-- Passes over the comma that all entries of a flow collection but the first need. -/
def separated (isFirst : Bool) : Builder Bool :=
  if isFirst then return true else accept .flowEntry

/-- An empty scalar where one of the tokens comes next. -/
def orEmpty (ends : List Token) (node : Builder Node) : Builder Node := do
  match ← peek with
  | some t => if t ∈ ends then return .scalar none .plain "" else node
  | none => node

/-! ## Properties of nodes -/

def readAnchor : Builder (Option String) := do
  match ← peek with
  | some (.anchor name) => skip; return some name
  | _ => return none

/-- A tag with its handle resolved. -/
def readTag : Builder (Option String) := do
  match ← peek with
  | some (.tag handle suffix) =>
    skip
    if handle = "" then return some suffix
    else
      match (← get).handles.lookup handle with
      | some expansion => return some (expansion ++ suffix)
      | none => failure
  | _ => return none

/-- The anchor and the tag of a node, both optional, in either order. -/
def readProperties : Builder (Option String × Option String) := do
  match ← readAnchor with
  | some name => return (some name, ← readTag)
  | none =>
    let tag ← readTag
    return (← readAnchor, tag)

/-- Numbers an anchor that begins here by the count of the names before it; its place comes out. -/
def beginAnchor (name : String) : Builder Nat := do
  let d ← get
  let number := d.numbers.length
  let place := d.anchored.length
  set { d with
    numbers := (name, number) :: d.numbers.filter fun n => n.1 ≠ name
    anchored := (number, place) :: d.anchored }
  return place

/-- Keeps an anchored node. -/
def finishAnchor (place : Nat) (node : Node) : Builder Unit :=
  modify fun d => { d with finished := (place, node) :: d.finished }

def readAlias (name : String) : Builder Node := do
  match (← get).numbers.lookup name with
  | some number => return .alias number
  | none => failure

/-! ## Nodes -/

mutual

/-- A node. A block collection is possible in a block only, and a sequence without indentation of
its own inside a mapping only. -/
def node (inBlock indentless : Bool) : Nat → Builder Node
  | 0 => failure
  | steps + 1 => do
    match ← peek with
    | some (.alias name) => skip; readAlias name
    | _ =>
      let (anchor, tag) ← readProperties
      let place ← anchor.mapM beginAnchor
      let n ← content inBlock indentless (anchor.isSome || tag.isSome) tag steps
      place.forM fun p => finishAnchor p n
      return n

/-- What follows the properties of a node. -/
def content (inBlock indentless hasProperties : Bool) (tag : Option String) : Nat → Builder Node
  | 0 => failure
  | steps + 1 => do
    match ← peek, inBlock, indentless with
    | some .blockEntry, _, true => return .sequence tag (← indentlessItems steps)
    | some (.scalar style text), _, _ =>
      skip
      return .scalar (if tag = some "!" then none else tag) style text
    | some .flowSequence, _, _ => skip; return .sequence tag (← flowItems true steps)
    | some .flowMapping, _, _ => skip; return .mapping tag (← flowPairs true steps)
    | some .blockSequence, true, _ => skip; return .sequence tag (← blockItems steps)
    | some .blockMapping, true, _ => skip; return .mapping tag (← blockPairs steps)
    | _, _, _ => if hasProperties then return .scalar tag .plain "" else failure

def blockItems : Nat → Builder (List Node)
  | 0 => failure
  | steps + 1 => do
    if ← accept .blockEntry then
      let n ← orEmpty [.blockEntry, .blockEnd] (node true false steps)
      return n :: (← blockItems steps)
    else if ← accept .blockEnd then return []
    else failure

def indentlessItems : Nat → Builder (List Node)
  | 0 => failure
  | steps + 1 => do
    if ← accept .blockEntry then
      let n ← orEmpty [.blockEntry, .key, .value, .blockEnd] (node true false steps)
      return n :: (← indentlessItems steps)
    else return []

def blockPairs : Nat → Builder (List (Node × Node))
  | 0 => failure
  | steps + 1 => do
    if ← accept .key then
      let ends := [.key, .value, .blockEnd]
      let k ← orEmpty ends (node true true steps)
      let v ← if ← accept .value then orEmpty ends (node true true steps)
        else pure (.scalar none .plain "")
      return (k, v) :: (← blockPairs steps)
    else if ← accept .blockEnd then return []
    else failure

/-- The value behind a key in the flow style. -/
def flowValue (ends : List Token) : Nat → Builder Node
  | 0 => failure
  | steps + 1 => do
    if ← accept .value then orEmpty ends (node false false steps)
    else return .scalar none .plain ""

/-- A pair inside a flow sequence. Without a key the token that takes its place is lost. -/
def flowPair : Nat → Builder (Node × Node)
  | 0 => failure
  | steps + 1 => do
    let ends := [.flowEntry, .flowSequenceEnd]
    match ← peek with
    | some t =>
      let k ← if t ∈ .value :: ends then (do skip; pure (.scalar none .plain ""))
        else node false false steps
      return (k, ← flowValue ends steps)
    | none => failure

def flowItems (isFirst : Bool) : Nat → Builder (List Node)
  | 0 => failure
  | steps + 1 => do
    if ← accept .flowSequenceEnd then return []
    else if ← separated isFirst then
      if ← accept .flowSequenceEnd then return []
      else if ← accept .key then
        let pair ← flowPair steps
        return .mapping none [pair] :: (← flowItems false steps)
      else
        let n ← node false false steps
        return n :: (← flowItems false steps)
    else failure

def flowPairs (isFirst : Bool) : Nat → Builder (List (Node × Node))
  | 0 => failure
  | steps + 1 => do
    let ends := [.flowEntry, .flowMappingEnd]
    if ← accept .flowMappingEnd then return []
    else if ← separated isFirst then
      if ← accept .flowMappingEnd then return []
      else if ← accept .key then
        let k ← orEmpty (.value :: ends) (node false false steps)
        let v ← flowValue ends steps
        return (k, v) :: (← flowPairs false steps)
      else
        let k ← node false false steps
        return (k, .scalar none .plain "") :: (← flowPairs false steps)
    else failure

end

/-! ## Documents -/

/-- The rules in front of a document. -/
def rules : Nat → Bool → Builder Unit
  | 0, _ => failure
  | steps + 1, hasVersion => do
    match ← peek with
    | some (.versionRule major minor) =>
      if hasVersion || major != 1 || !(minor == 1 || minor == 2) then failure
      else
        skip
        rules steps true
    | some (.handleRule handle expansion) =>
      let d ← get
      if (d.handles.lookup handle).isSome then failure
      else
        set { d with tokens := d.tokens.tail, handles := (handle, expansion) :: d.handles }
        rules steps hasVersion
    | _ => return ()

/-- The handles that need no rule; a rule can give them another meaning. -/
def standardHandles : List (String × String) :=
  [("!", "!"), ("!!", coreTag "")]

/-- Whether a token can only stand in front of a document. -/
def isPrologue : Token → Bool
  | .versionRule _ _ => true
  | .handleRule _ _ => true
  | .documentStart => true
  | _ => false

/-- A document behind its rules and its mark, which may hold nothing. -/
def markedDocument (steps : Nat) : Builder Node := do
  rules steps false
  if ← accept .documentStart then
    modify fun d => { d with handles := d.handles ++ standardHandles }
    match ← peek with
    | none => return .scalar none .plain ""
    | some .documentEnd => return .scalar none .plain ""
    | some _ => node true false steps
  else failure

/-- The only document of the tokens. -/
def document : Builder Node := do
  let steps := 4 * (← get).tokens.length + 8
  let n ← match ← peek with
    | none => pure .absent
    | some t =>
      if isPrologue t then markedDocument steps
      else
        modify fun d => { d with handles := standardHandles }
        node true false steps
  modify fun d => { d with tokens := d.tokens.dropWhile (· = .documentEnd) }
  match ← peek with
  | none => return n
  | some _ => failure

end Builder

/-! ## Aliases -/

mutual

/-- The number of scalars, aliases and ends of collections in a node. -/
def Node.eventCount : Node → Nat
  | .sequence _ items => itemEvents items + 2
  | .mapping _ pairs => pairEvents pairs + 2
  | _ => 1

def itemEvents : List Node → Nat
  | [] => 0
  | n :: rest => n.eventCount + itemEvents rest

def pairEvents : List (Node × Node) → Nat
  | [] => 0
  | (k, v) :: rest => k.eventCount + v.eventCount + pairEvents rest

end

/-- The node that an alias stands for, as long as aliases may be followed. -/
def Node.followed (target? : Nat → Option Node) (n : Node) : StateM Nat Node := do
  match n with
  | .alias number =>
    match ← get with
    | 0 => return n
    | left + 1 =>
      set left
      return (target? number).getD n
  | n => return n

/-- Replaces aliases by what they stand for, down to a depth. -/
def Node.expanded (target? : Nat → Option Node) : Nat → Node → StateM Nat Node
  | 0, n => return n
  | depth + 1, n => do
    match ← n.followed target? with
    | .sequence tag items => return .sequence tag (← items.mapM (expanded target? depth))
    | .mapping tag pairs =>
      return .mapping tag (← pairs.mapM fun (k, v) => do
        return (← expanded target? depth k, ← expanded target? depth v))
    | n => return n

/-- The tree of the only document that the tokens hold. Aliases are followed at most a hundred times
for each part of the document. -/
def Node.ofTokens? (tokens : List Token) : Option Node :=
  match Builder.document.run ⟨tokens, [], [], [], []⟩ with
  | none => none
  | some (n, d) =>
    let target? (number : Nat) : Option Node :=
      (d.anchored.lookup number).bind fun place => d.finished.lookup place
    some (n.expanded target? (largestDepth + 1) (100 * n.eventCount)).1

end Yaml
end SchemaScript
