import Chip8.Text.Hex
import Chip8.Text.Unprintable

/-!
Quoted text, as log lines and error messages show names and payloads. A quoted text stays on one
line and can be told apart from any other: the delimiter and the backslash get a backslash in front,
the common controls have a letter, and every other unprintable character is shown by its code point.
-/

namespace Chip8.Text

/-- How `c` is written between two marks `delimiter`. -/
def escaped (delimiter c : Char) : List Char :=
  if c = '\x00' then ['\\', '0']
  else if c = '\t' then ['\\', 't']
  else if c = '\r' then ['\\', 'r']
  else if c = '\n' then ['\\', 'n']
  else if c = '\\' ∨ c = delimiter then ['\\', c]
  else if isUnprintable c then "\\u\x7b".toList ++ hexDigits c.toNat ++ ['\x7d']
  else [c]

def quoted (text : String) : String :=
  String.ofList ('"' :: text.toList.flatMap (escaped '"') ++ ['"'])

def quotedChar (c : Char) : String :=
  String.ofList ('\'' :: escaped '\'' c ++ ['\''])

end Chip8.Text
