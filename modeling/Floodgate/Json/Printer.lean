import Floodgate.Decimal.Layout
import Floodgate.Json.Basic

/-!
# Writing JSON

Values are written without blank space. A string escapes quotes, backslashes and control characters,
and nothing else. A real number keeps a point or an exponent, so that it is not read back as an
integer.
-/

set_option autoImplicit false

namespace Floodgate
namespace Json

/-- Real numbers are positional up to sixteen digits before the point and four zeros after it.
Beyond that they have an exponent, which has a sign in any case. -/
def numberLayout : Decimal.Layout :=
  { mostBefore := some 16, zerosAfter := some 5, pointZero := true, plusSign := true, tie := .even }

def hexDigit (n : Nat) : Char := Nat.digitChar (n % 16)

/-- A character as it stands in a string. -/
def escape (c : Char) : List Char :=
  if c = '"' then ['\\', '"']
  else if c = '\\' then ['\\', '\\']
  else if c = '\x08' then ['\\', 'b']
  else if c = '\x0c' then ['\\', 'f']
  else if c = '\n' then ['\\', 'n']
  else if c = '\r' then ['\\', 'r']
  else if c = '\t' then ['\\', 't']
  else if c.toNat < 0x20 then ['\\', 'u', '0', '0', hexDigit (c.toNat / 16), hexDigit c.toNat]
  else [c]

def quote (s : String) : String := "\"" ++ String.ofList (s.toList.flatMap escape) ++ "\""

mutual

def render : Json → String
  | null => "null"
  | bool true => "true"
  | bool false => "false"
  | int i => toString i
  | real x => numberLayout.render x.toFloat
  | str s => quote s
  | arr items => "[" ++ renderItems items ++ "]"
  | obj members => "\x7b" ++ renderMembers members ++ "\x7d"
  | unreadable => "null"

/-- The texts of the items with commas between them. -/
def renderItems : List Json → String
  | [] => ""
  | [j] => render j
  | j :: rest => render j ++ "," ++ renderItems rest

/-- The texts of the members with commas between them. -/
def renderMembers : List (String × Json) → String
  | [] => ""
  | [(k, j)] => quote k ++ ":" ++ render j
  | (k, j) :: rest => quote k ++ ":" ++ render j ++ "," ++ renderMembers rest

end

end Json
end Floodgate
