import TreeShell.Text.Hex
import TreeShell.Text.Invisible

/-!
# Quoted text

A text between double quotes, with an escape for every character that would not be seen.

* `quoted`: `\t`, `\r`, `\n`, `\0`, `\"` and `\\` have escapes of their own, any other such
  character is written by its code point in lower-case hexadecimal digits.
-/

namespace TreeShell.Text

/-- One character inside quotes. -/
def quotedChar (c : Char) : List Char :=
  if c = '\x00' then ['\\', '0']
  else if c = '\t' then ['\\', 't']
  else if c = '\r' then ['\\', 'r']
  else if c = '\n' then ['\\', 'n']
  else if c = '\\' then ['\\', '\\']
  else if c = '"' then ['\\', '"']
  else if isExtending c || isInvisible c then
    ['\\', 'u', '\x7b'] ++ hexDigits c.toNat ++ ['\x7d']
  else [c]

/-- The text between double quotes. -/
def quoted (s : String) : String :=
  String.ofList ('"' :: s.toList.flatMap quotedChar ++ ['"'])

end TreeShell.Text
