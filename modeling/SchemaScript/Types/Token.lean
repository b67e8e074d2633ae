import SchemaScript.Text.Blank
import SchemaScript.Text.Case

/-!
# SchemaScript.Types.Token

Type tokens as written in a model: a keyword, and parameters in brackets if there are any.

A token has parameters if it starts with a word of letters, digits, underscores and blanks, goes on
with a bracket, and ends with one; what is between the first and the last bracket is the text of
the parameters, which must not contain a line feed.
-/

namespace SchemaScript

structure TypeToken where
  /-- The keyword in capitals. -/
  base : String
  /-- What is between the brackets, without white space around it. -/
  params : Option String
deriving DecidableEq, Repr

namespace TypeToken

def isLetter (c : Char) : Bool :=
  ('A' ≤ c && c ≤ 'Z') || ('a' ≤ c && c ≤ 'z')

def isWordChar (c : Char) : Bool :=
  isLetter c || ('0' ≤ c && c ≤ '9') || c == '_' || c == ' '

/-- Whether the characters can be the keyword of a token with parameters. -/
def isKeyword : List Char → Bool
  | [] => false
  | c :: rest => isLetter c && rest.all isWordChar

/-- The keyword and the parameters of a trimmed token that has parameters. -/
def split? (token : List Char) : Option (List Char × List Char) :=
  let keyword := Text.trimEndChars (token.takeWhile (· ≠ '('))
  match token.dropWhile (· ≠ '(') with
  | [] => none
  | _ :: rest =>
    if isKeyword keyword && rest.getLast? == some ')' && !rest.dropLast.contains '\n' then
      some (keyword, Text.trimChars rest.dropLast)
    else none

def parse (token : String) : TypeToken :=
  let trimmed := Text.trimChars token.toList
  match split? trimmed with
  | some (keyword, params) =>
    ⟨String.ofList (Text.upperChars keyword), some (String.ofList params)⟩
  | none => ⟨String.ofList (Text.upperChars trimmed), none⟩

/-- Whether the parameters go with the keyword into every dialect that has types of its own. -/
def keepsParams (t : TypeToken) : Bool :=
  t.base ∈ ["VARCHAR", "CHAR", "DECIMAL", "NUMERIC"]

end TypeToken
end SchemaScript
