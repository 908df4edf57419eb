import Showcase.Text.Hidden
import Showcase.Text.Numeral

/-!
# Quoted texts

A text between double quotes, as it is shown in messages: quotes and backslashes are escaped, four
control characters have letters, and every other character that would not be seen is given by its
code point in braces.
-/

namespace Showcase

/-- The lower-case digits of a number in base sixteen. -/
def hexadecimal (n : Nat) : Text := Nat.toDigits 16 n

/-- One character of a quoted text. -/
def quotedChar (c : Char) : Text :=
  if c = '"' then "\\\""
  else if c = '\\' then "\\\\"
  else if c = '\x00' then "\\0"
  else if c = '\t' then "\\t"
  else if c = '\n' then "\\n"
  else if c = '\r' then "\\r"
  else if isHiddenChar c then "\\u\x7b".toList ++ hexadecimal c.toNat ++ "\x7d".toList
  else [c]

/-- The text between quotes. -/
def quoted (s : Text) : Text := '"' :: s.flatMap quotedChar ++ ['"']

end Showcase
