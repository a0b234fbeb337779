/-!
# Blank space

Names, keys and lines are read with the blank space around them taken off. Blank are the
characters with the Unicode property White_Space, twenty-five code points in ten ranges; a zero
width space or a byte order mark is not one of them.

Trimming works on lists of characters, and `trim` lifts it to strings.
-/

set_option autoImplicit false

namespace Floodgate
namespace Text

/-- The ranges of White_Space, ends included. -/
def blankRanges : List (Nat × Nat) :=
  [(0x09, 0x0D), (0x20, 0x20), (0x85, 0x85), (0xA0, 0xA0), (0x1680, 0x1680), (0x2000, 0x200A),
    (0x2028, 0x2029), (0x202F, 0x202F), (0x205F, 0x205F), (0x3000, 0x3000)]

def isBlank (c : Char) : Bool := blankRanges.any fun r => r.1 ≤ c.toNat && c.toNat ≤ r.2

/-- Drops the characters at the end that satisfy a condition. -/
def dropWhileEnd (p : Char → Bool) (cs : List Char) : List Char :=
  (cs.reverse.dropWhile p).reverse

/-- Drops the blank space at both ends. -/
def trimChars (cs : List Char) : List Char := dropWhileEnd isBlank (cs.dropWhile isBlank)

/-- Drops the blank space at both ends of a text. -/
def trim (s : String) : String := String.ofList (trimChars s.toList)

/-- The trimmed text, unless nothing is left of it. -/
def nonBlank? (s : String) : Option String := if trim s = "" then none else some (trim s)

/-- Whether a text is empty or blank throughout. -/
def isAllBlank (s : String) : Bool := (nonBlank? s).isNone

end Text
end Floodgate
