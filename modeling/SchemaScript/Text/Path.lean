/-!
# SchemaScript.Text.Path

Paths as texts. The parts of a path stand between its slashes; empty parts and points name nothing,
apart from a point that a path begins with. Two paths with the same parts are the same if both or
neither of them begin at the root.
-/

namespace SchemaScript
namespace Path

/-- The parts of a path between its slashes, with the empty ones. -/
def parts (path : String) : List String :=
  (path.toList.splitOn '/').map String.ofList

def namesSomething (part : String) : Bool :=
  part ≠ "" ∧ part ≠ "."

/-- The parts that name something, a leading point apart. -/
def proper : List String → List String
  | "." :: rest => "." :: rest.filter namesSomething
  | parts => parts.filter namesSomething

def properParts (path : String) : List String :=
  proper (parts path)

def isRooted (path : String) : Bool :=
  path.toList.head? == some '/'

/-- A path behind the path of a directory; one that begins at the root stands for itself. -/
def join (directory path : String) : String :=
  if isRooted path then path
  else if directory = "" ∨ directory.toList.getLast? = some '/' then directory ++ path
  else directory ++ "/" ++ path

/-- Whether the path without its last part is that of the directory. -/
def isDirectlyIn (directory path : String) : Bool :=
  match properParts path with
  | [] => false
  | parts => isRooted path == isRooted directory && parts.dropLast == properParts directory

example : isDirectlyIn "/out" "/out/./a.sql" = true ∧ isDirectlyIn "/out" "/out/a/b.sql" = false ∧
    isDirectlyIn "/out" "/out/." = false := by
  decide +kernel

end Path
end SchemaScript
