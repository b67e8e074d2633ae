/-!
# SchemaScript.Entries

Lists of named values in which a name keeps its first place and its last value.
-/

namespace SchemaScript
namespace Entries

variable {α : Type}

/-- Gives a name a value, in its place if it has one and else at the end. -/
def put (name : String) (a : α) : List (String × α) → List (String × α)
  | [] => [(name, a)]
  | (other, b) :: rest =>
    if other = name then (name, a) :: rest else (other, b) :: put name a rest

/-- The entries with each name once. -/
def merge (entries : List (String × α)) : List (String × α) :=
  entries.foldl (fun acc e => put e.1 e.2 acc) []

end Entries
end SchemaScript
