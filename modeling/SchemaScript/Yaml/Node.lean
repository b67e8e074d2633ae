import SchemaScript.Decimal.Range
import SchemaScript.Text.Digits

/-!
# SchemaScript.Yaml.Node

YAML documents as trees, and the values that scalars stand for under the core schema.
-/

namespace SchemaScript
namespace Yaml

open Text (isDecimal numberIn?)

inductive Style where
  | plain
  | singleQuoted
  | doubleQuoted
  | literal
  | folded
deriving DecidableEq, Repr

inductive Node where
  /-- A stream without a document. -/
  | absent
  | scalar (tag : Option String) (style : Style) (text : String)
  | sequence (tag : Option String) (items : List Node)
  | mapping (tag : Option String) (pairs : List (Node × Node))
  /-- The node that an anchor was put on; `Node.expanded` leaves only those that stand for too
  much. -/
  | alias (target : Nat)
deriving Repr

/-- The deepest nesting of collections. -/
def largestDepth : Nat := 128

def coreTag (name : String) : String :=
  "tag:yaml.org,2002:" ++ name

/-- The name of a local tag such as `!name`; the tag `!` names itself. -/
def localTag? (tag : Option String) : Option String :=
  match tag.map String.toList with
  | some ['!'] => some "!"
  | some ('!' :: rest) => some (String.ofList rest)
  | _ => none

/-! ## Scalars -/

def nullText? (text : String) : Bool :=
  text ∈ ["null", "Null", "NULL", "~"]

def boolOf? (text : String) : Option Bool :=
  if text ∈ ["true", "True", "TRUE"] then some true
  else if text ∈ ["false", "False", "FALSE"] then some false
  else none

/-- Digits with a superfluous zero in front, which make a text and no number. -/
def zeroPadded (cs : List Char) : Bool :=
  let digits := match cs with
    | '-' :: rest => rest
    | '+' :: rest => rest
    | rest => rest
  match digits with
  | '0' :: c :: rest => (c :: rest).all isDecimal
  | _ => false

/-- The digits behind a base mark, with their base. -/
def basedDigits? : List Char → Option (Nat × List Char)
  | '0' :: 'x' :: rest => some (16, rest)
  | '0' :: 'o' :: rest => some (8, rest)
  | '0' :: 'b' :: rest => some (2, rest)
  | _ => none

def withoutPlus : List Char → List Char
  | '+' :: rest => rest
  | cs => cs

/-- A number without a minus sign. -/
def natural? (cs : List Char) : Option Nat :=
  match (basedDigits? (withoutPlus cs)).bind fun b => numberIn? b.1 b.2 with
  | some n => some n
  | none => if zeroPadded cs then none else numberIn? 10 (withoutPlus cs)

/-- The size of a number with a minus sign. -/
def negated? (cs : List Char) : Option Nat :=
  match cs with
  | '-' :: rest =>
    match (basedDigits? rest).bind fun b => numberIn? b.1 b.2 with
    | some n => some n
    | none => if zeroPadded cs then none else numberIn? 10 rest
  | _ => none

/-- The exponent of a decimal number, its sign and its digits; `none` if the text is none. -/
def exponent? (cs : List Char) : Option Int :=
  match cs with
  | '-' :: rest => (numberIn? 10 rest).map fun n => -(n : Int)
  | cs => (numberIn? 10 (withoutPlus cs)).map fun n => (n : Int)

/-- Whether the text is a finite number in decimal notation, with at least one digit before or
behind the point. -/
def isFiniteDecimal (cs : List Char) : Bool :=
  let unsigned := match cs with
    | '-' :: rest => rest
    | cs => withoutPlus cs
  let whole := unsigned.takeWhile isDecimal
  let tail := unsigned.dropWhile isDecimal
  let (fraction, tail) := match tail with
    | '.' :: rest => (rest.takeWhile isDecimal, rest.dropWhile isDecimal)
    | rest => ([], rest)
  let exponent := match tail with
    | [] => some 0
    | 'e' :: rest => exponent? rest
    | 'E' :: rest => exponent? rest
    | _ => none
  match exponent, numberIn? 10 (whole ++ fraction) with
  | some e, some n => Decimal.isFinite n (e - fraction.length)
  | _, _ => false

/-- Whether the text stands for a floating point number. -/
def isFloat (cs : List Char) : Bool :=
  let text := String.ofList cs
  text ∈ [".inf", ".Inf", ".INF", "+.inf", "+.Inf", "+.INF", "-.inf", "-.Inf", "-.INF", ".nan",
    ".NaN", ".NAN"] ||
  match cs with
  | '+' :: '+' :: _ => false
  | '+' :: '-' :: _ => false
  | cs => isFiniteDecimal cs

/-- What a scalar stands for. -/
inductive Resolved where
  | null
  | bool (b : Bool)
  | natural (n : Nat)
  /-- A negative integer or a floating point number. -/
  | number
  | text (s : String)
deriving DecidableEq, Repr

/-- The integer that a text stands for. Integers beyond 64 bits are refused up to 128 bits, and
beyond these they are no integers. -/
def resolveInteger (cs : List Char) : Option (Option Resolved) :=
  match natural? cs, negated? cs with
  | some n, _ =>
    if n < Nat.pow 2 64 then some (some (.natural n))
    else if n < Nat.pow 2 128 then some none
    else none
  | none, some n =>
    if n ≤ Nat.pow 2 63 then some (some .number) else if n ≤ Nat.pow 2 127 then some none else none
  | none, none => none

/-- The value of a plain scalar without a tag; `none` if it has none. -/
def resolvePlain (text : String) : Option Resolved :=
  if text.isEmpty ∨ nullText? text then some .null
  else
    match boolOf? text with
    | some b => some (.bool b)
    | none =>
      match resolveInteger text.toList with
      | some r => r
      | none =>
        if !zeroPadded text.toList && isFloat text.toList then some .number
        else some (.text text)

/-- The value of a scalar; `none` if it has none. -/
def resolve (tag : Option String) (style : Style) (text : String) : Option Resolved :=
  match tag with
  | none => if style = .plain then resolvePlain text else some (.text text)
  | some tag =>
    if tag = coreTag "bool" then (boolOf? text).map .bool
    else if tag = coreTag "int" then (resolveInteger text.toList).bind id
    else if tag = coreTag "float" then
      if isFloat text.toList then some .number else none
    else if tag = coreTag "null" then
      if nullText? text then some .null else none
    else some (.text text)

mutual

/-- Whether a node and all nodes in it have values, with at most `depth` containers in each
other. -/
def Node.hasValue (depth : Nat) : Node → Bool
  | .absent => true
  | .alias _ => false
  | .scalar tag style text =>
    (localTag? tag).isNone && (resolve tag style text).isSome
  | .sequence tag items =>
    (localTag? tag).isNone && 0 < depth && allHaveValue (depth - 1) items
  | .mapping tag pairs =>
    (localTag? tag).isNone && 0 < depth && pairsHaveValue (depth - 1) pairs

def allHaveValue (depth : Nat) : List Node → Bool
  | [] => true
  | n :: rest => n.hasValue depth && allHaveValue depth rest

def pairsHaveValue (depth : Nat) : List (Node × Node) → Bool
  | [] => true
  | (k, v) :: rest => k.hasValue depth && v.hasValue depth && pairsHaveValue depth rest

end

/-- How scalars are understood: by the field they are wanted for, or by their own value. -/
inductive Reading where
  | byField
  | byValue
deriving DecidableEq, Repr

end Yaml
end SchemaScript
