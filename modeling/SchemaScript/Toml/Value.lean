/-!
# SchemaScript.Toml.Value

Values of a TOML document and how its lines put tables together. A table may be written once: under
a header of its own, in braces, or bit by bit by keys with dots. Tables that headers only mention on
the way to others may still get their own header.
-/

namespace SchemaScript
namespace Toml

/-- How a table has come about. -/
inductive Origin where
  | header
  /-- Mentioned on the way to another table. -/
  | implied
  /-- Mentioned in a key with dots. -/
  | dotted
  /-- Written in braces. -/
  | braced
deriving DecidableEq, Repr

inductive Value where
  | string (s : String)
  | bool (b : Bool)
  /-- A number or a point in time. -/
  | quantity (text : String)
  | array (items : List Value)
  | table (origin : Origin) (members : List (String × Value))
  /-- An array of tables under headers of their own. -/
  | tables (elements : List (List (String × Value)))
deriving Repr

abbrev Members := List (String × Value)

namespace Members

/-- Changes the value of a name; a new name comes last. -/
def change (ms : Members) (name : String) (f : Option Value → Option Value) : Option Members :=
  match ms.lookup name with
  | none => (f none).map fun v => ms ++ [(name, v)]
  | some v => (f (some v)).map fun w => ms.map fun m => if m.1 = name then (name, w) else m

/-- Adds a value under a new name. -/
def insert (ms : Members) (name : String) (v : Value) : Option Members :=
  ms.change name fun
    | none => some v
    | some _ => none

/-- Changes the last of an array of tables. -/
def changeLast (elements : List Members) (f : Members → Option Members) : Option Value :=
  match elements.getLast? with
  | some ms => (f ms).map fun ms => .tables (elements.dropLast ++ [ms])
  | none => none

/-- Changes the table that a header names the way to. -/
def changeAt : List String → (Members → Option Members) → Members → Option Members
  | [], f, ms => f ms
  | name :: path, f, ms =>
    ms.change name fun
      | none => (changeAt path f []).map (.table .implied)
      | some (.table origin inner) =>
        if origin = .braced then none else (changeAt path f inner).map (.table origin)
      | some (.tables elements) => changeLast elements (changeAt path f)
      | some _ => none

/-- Opens the table of a header. -/
def openTable (ms : Members) (name : String) : Option Members :=
  ms.change name fun
    | none => some (.table .header [])
    | some (.table .implied inner) => some (.table .header inner)
    | some _ => none

/-- Opens a new element of an array of tables. -/
def openElement (ms : Members) (name : String) : Option Members :=
  ms.change name fun
    | none => some (.tables [[]])
    | some (.tables elements) => some (.tables (elements ++ [[]]))
    | some _ => none

/-- Adds a value under a key with dots, in a table that fits such keys or not. -/
def insertAt (fits : Bool) : List String → String → Value → Members → Option Members
  | [], name, v, ms => if fits then ms.insert name v else none
  | part :: path, name, v, ms =>
    ms.change part fun
      | none => (insertAt true path name v []).map (.table .dotted)
      | some (.table .dotted inner) => (insertAt true path name v inner).map (.table .dotted)
      | some (.table .implied inner) => (insertAt false path name v inner).map (.table .implied)
      | some (.tables elements) => changeLast elements (insertAt false path name v)
      | some _ => none

end Members
end Toml
end SchemaScript
