import SchemaScript.Script.Scope

/-!
# SchemaScript.Review.References

Findings about references: targets that do not exist, tables that refer to themselves, and tables
that refer to each other in a circle.

Among the exported tables of one name the last one counts as the target of a reference. A circle is
a set of at least two names each of which can be reached from each other along references.
-/

namespace SchemaScript
namespace Review

inductive UnresolvedKind where
  | missingTable
  | missingColumn
deriving DecidableEq, Repr

structure UnresolvedReference where
  table : String
  column : String
  target : Reference
  kind : UnresolvedKind
deriving DecidableEq, Repr

structure SelfReference where
  table : String
  column : String
deriving DecidableEq, Repr

/-- The last of the tables with the given name. -/
def lastTable? (tables : List Table) (name : String) : Option Table :=
  tables.reverse.find? (·.name == name)

/-- What is missing for a reference, if anything is. -/
def missing? (tables : List Table) (r : Reference) : Option UnresolvedKind :=
  match lastTable? tables r.table with
  | none => some .missingTable
  | some t => if (t.column? r.column).isNone then some .missingColumn else none

def unresolvedOf (tables : List Table) (t : Table) : List UnresolvedReference :=
  t.links.filterMap fun l =>
    (missing? tables l.target).map fun kind => ⟨t.name, l.column.name, l.target, kind⟩

/-- References of exported tables to tables or columns that are not exported. -/
def unresolvedReferences (tables : List Table) : List UnresolvedReference :=
  let exported := tables.filter (·.isExportable)
  exported.flatMap (unresolvedOf exported)

def selfReferences (tables : List Table) : List SelfReference :=
  tables.flatMap fun t =>
    (t.links.filter fun l => l.target.table == t.name).map fun l => ⟨t.name, l.column.name⟩

/-! ## Circles -/

/-- The distinct elements in the order of their first places. -/
def distinct : List String → List String
  | [] => []
  | name :: rest => name :: (distinct rest).filter (· ≠ name)

/-- The names of the tables that refer to each other, one pair for each foreign key. -/
def arrows (tables : List Table) : List (String × String) :=
  tables.flatMap fun t => t.links.map fun l => (t.name, l.target.table)

/-- The names that the arrows of a name lead to. -/
def successors (arrows : List (String × String)) (name : String) : List String :=
  (arrows.filter fun e => e.1 == name).map (·.2)

/-- The remaining names that can be reached from the pending ones, each of which is visited once. -/
def visit (next : String → List String) : Nat → List String → List String → List String
  | 0, _, _ => []
  | steps + 1, remaining, pending =>
    match pending.dropWhile fun n => !remaining.contains n with
    | [] => []
    | n :: rest => n :: visit next steps (remaining.erase n) (next n ++ rest)

/-- The names among the given ones that can be reached from `start`, itself included. -/
def reachable (arrows : List (String × String)) (names : List String) (start : String) :
    List String :=
  visit (successors arrows) names.length names [start]

/-- Each name with the names that can be reached from it. -/
def closures (tables : List Table) : List (String × List String) :=
  let names := distinct (tables.map (·.name))
  let arrows := arrows tables
  names.map fun a => (a, reachable arrows names a)

/-- The names that can be reached from `a` and from which `a` can be reached. -/
def circleOf (closures : List (String × List String)) (a : String) (reached : List String) :
    List String :=
  (closures.filter fun c => reached.contains c.1 && c.2.contains a).map (·.1)

def orderedBefore : List String → List String → Bool
  | [], _ => true
  | _ :: _, [] => false
  | a :: as, b :: bs => if a < b then true else if a = b then orderedBefore as bs else false

/-- The circles, each told at its first name, in lexicographic order. -/
def circles (tables : List Table) : List (List String) :=
  let all := closures tables
  let found := all.filterMap fun c =>
    let members := circleOf all c.1 c.2
    if members.head? = some c.1 ∧ 1 < members.length then some members else none
  found.mergeSort orderedBefore

end Review
end SchemaScript
