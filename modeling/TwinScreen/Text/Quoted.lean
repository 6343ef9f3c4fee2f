import TwinScreen.Text.Hexadecimal
import TwinScreen.Text.Invisible

/-!
# Quoted text

Text between quotation marks, as messages show it: quotation marks, backslashes and the usual
control characters are escaped by a backslash, and a character that cannot be seen on its own is
written by its code point.
-/
namespace TwinScreen.Text

/-- A character inside quotation marks. -/
def quotedChar (c : Char) : List Char :=
  match c with
  | '\x00' => ['\\', '0']
  | '\t' => ['\\', 't']
  | '\r' => ['\\', 'r']
  | '\n' => ['\\', 'n']
  | '"' => ['\\', '"']
  | '\\' => ['\\', '\\']
  | c =>
      if isInvisible c then
        ['\\', 'u', '\x7b'] ++ Hexadecimal.lowerNumber c.toNat ++ ['\x7d']
      else [c]

def quoted (s : String) : String :=
  String.ofList ('"' :: s.toList.flatMap quotedChar ++ ['"'])

end TwinScreen.Text
