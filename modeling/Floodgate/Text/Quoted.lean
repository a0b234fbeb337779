import Floodgate.Text.Printable

/-!
# Quoted texts

Messages show a text they complain about in double quotes, such that every character of it can be
seen: what cannot be shown, and what would merge with the character before it, is written as its
code point.
-/

set_option autoImplicit false

namespace Floodgate
namespace Text

/-- A character as it stands in a quoted text. -/
def escaped (c : Char) : List Char :=
  if c = '\x00' then ['\\', '0']
  else if c = '\t' then ['\\', 't']
  else if c = '\n' then ['\\', 'n']
  else if c = '\r' then ['\\', 'r']
  else if c = '"' then ['\\', '"']
  else if c = '\\' then ['\\', '\\']
  else if isExtender c || !isPrintable c then
    ['\\', 'u', '{'] ++ Nat.toDigits 16 c.toNat ++ ['}']
  else [c]

def quoted (s : String) : String := "\"" ++ String.ofList (s.toList.flatMap escaped) ++ "\""

end Text
end Floodgate
