/-
Text in double quotes, as messages show a text that came from outside:
so that it can be seen where it begins and ends and what is in it.
Quotes and backslashes are escaped, so are the common control characters
by a letter, and everything else that does not print on its own by its
number. An apostrophe stands for itself.
-/
import Chip8.Text.Unprintable

namespace Chip8.Text

/-- A character inside quotes. -/
def quotedChar (c : Char) : List Char :=
  if c = '"' then ['\\', '"']
  else if c = '\\' then ['\\', '\\']
  else if c = '\t' then ['\\', 't']
  else if c = '\n' then ['\\', 'n']
  else if c = '\r' then ['\\', 'r']
  else if c = '\x00' then ['\\', '0']
  else if isUnprintable c then
    ['\\', 'u', '{'] ++ Nat.toDigits 16 c.toNat ++ ['}']
  else [c]

/-- A text in quotes. -/
def quoted (s : String) : String :=
  String.ofList ('"' :: s.toList.flatMap quotedChar ++ ['"'])

end Chip8.Text
