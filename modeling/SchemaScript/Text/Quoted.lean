import SchemaScript.Text.Hex
import SchemaScript.Text.Visible

/-!
# SchemaScript.Text.Quoted

A text between double quotes as messages show it: the quote, the backslash and the usual controls
have short escapes, and every other hidden character is given by its number in hexadecimal.
-/

namespace SchemaScript
namespace Text

def quotedChar (c : Char) : List Char :=
  match c with
  | '\t' => ['\\', 't']
  | '\r' => ['\\', 'r']
  | '\n' => ['\\', 'n']
  | '\x00' => ['\\', '0']
  | '"' => ['\\', '"']
  | '\\' => ['\\', '\\']
  | c =>
    if isVisible c then [c] else ['\\', 'u', '\x7b'] ++ hexDigits c.toNat ++ ['\x7d']

def quoted (s : String) : String :=
  String.ofList ('"' :: s.toList.flatMap quotedChar ++ ['"'])

end Text
end SchemaScript
