import Metering.Text.Invisible

/-!
# Quoted text

A text between double quotes, as messages show names that come from outside.  The quote and the
backslash are written after a backslash, five control characters have a letter or digit, and every
other character without a form of its own is written by its number.
-/

namespace Metering.Text

/-- One character of a quoted text. -/
def escaped (c : Char) : List Char :=
  if c = '"' then ['\\', '"']
  else if c = '\\' then ['\\', '\\']
  else if c = '\n' then ['\\', 'n']
  else if c = '\r' then ['\\', 'r']
  else if c = '\t' then ['\\', 't']
  else if c.toNat = 0 then ['\\', '0']
  else if isInvisible c then ['\\', 'u', '\x7b'] ++ Nat.toDigits 16 c.toNat ++ ['\x7d']
  else [c]

/-- A text between quotes. -/
def quoted (s : String) : String :=
  String.ofList ('"' :: (s.toList.flatMap escaped ++ ['"']))

end Metering.Text
