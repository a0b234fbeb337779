import Floodgate.Json.Number

/-!
# The tokens of JSON text

A text is first cut into tokens: punctuation, strings, and the values that stand for themselves.
Between them only space, tab, line feed and carriage return are allowed. `scan?` reads one token and
says how many characters it took besides the first.
-/

set_option autoImplicit false

namespace Floodgate
namespace Json

inductive Token where
  | openItems
  | closeItems
  | openMembers
  | closeMembers
  | comma
  | colon
  /-- A string, unless its escapes leave half a surrogate pair. -/
  | text (s : Option String)
  | scalar (j : Json)

/-! ## Strings -/

/-- A character of a string, or one of its four-digit escapes. -/
inductive Unit16 where
  | plain (c : Char)
  | escaped (code : Nat)

def hexDigit? (c : Char) : Option Nat :=
  if '0' ≤ c && c ≤ '9' then some (c.toNat - '0'.toNat)
  else if 'a' ≤ c && c ≤ 'f' then some (c.toNat - 'a'.toNat + 10)
  else if 'A' ≤ c && c ≤ 'F' then some (c.toNat - 'A'.toNat + 10)
  else none

def hexCode? (a b c d : Char) : Option Nat := do
  return ((← hexDigit? a) * 16 + (← hexDigit? b)) * 256 + ((← hexDigit? c) * 16 + (← hexDigit? d))

/-- The character that a one-letter escape stands for. -/
def escapeLetter? : Char → Option Char
  | '"' => some '"'
  | '\\' => some '\\'
  | '/' => some '/'
  | 'b' => some '\x08'
  | 'f' => some '\x0c'
  | 'n' => some '\n'
  | 'r' => some '\r'
  | 't' => some '\t'
  | _ => none

/-- The units of a string up to its closing quote, last first, and how many characters were read. -/
def scanUnits (cs : List Char) (done : List Unit16) (count : Nat) : Option (List Unit16 × Nat) :=
  match cs with
  | [] => none
  | '"' :: _ => some (done, count + 1)
  | '\\' :: 'u' :: a :: b :: c :: d :: rest => do
    scanUnits rest (.escaped (← hexCode? a b c d) :: done) (count + 6)
  | '\\' :: e :: rest => do
    scanUnits rest (.plain (← escapeLetter? e) :: done) (count + 2)
  | c :: rest => if c.toNat < 0x20 then none else scanUnits rest (.plain c :: done) (count + 1)

/-- Whether a unit is the first half of a surrogate pair. -/
def isHighHalf (n : Nat) : Bool := 0xD800 ≤ n && n < 0xDC00

/-- Whether a unit is the second half of a surrogate pair. -/
def isLowHalf (n : Nat) : Bool := 0xDC00 ≤ n && n < 0xE000

/-- The characters that units stand for, two escapes that are halves of a pair being one. -/
def joinUnits : List Unit16 → Option (List Char)
  | [] => some []
  | .plain c :: rest => (c :: ·) <$> joinUnits rest
  | .escaped n :: .escaped m :: rest =>
    if isHighHalf n && isLowHalf m then
      (Char.ofNat (0x10000 + (n - 0xD800) * 0x400 + (m - 0xDC00)) :: ·) <$> joinUnits rest
    else if isHighHalf n || isLowHalf n then none
    else (Char.ofNat n :: ·) <$> joinUnits (.escaped m :: rest)
  | .escaped n :: rest =>
    if isHighHalf n || isLowHalf n then none else (Char.ofNat n :: ·) <$> joinUnits rest

/-! ## Numbers -/

def digitsOf (cs : List Char) : List Nat :=
  (cs.takeWhile Char.isDigit).map fun c => c.toNat - '0'.toNat

/-- The digits after a point, unless there is none; a point needs a digit. -/
def scanFraction? : List Char → Option (Option (List Nat) × Nat)
  | '.' :: rest =>
    let ds := digitsOf rest
    if ds.isEmpty then none else some (some ds, ds.length + 1)
  | _ => some (none, 0)

/-- The sign and digits of an exponent, unless there is none; an exponent needs a digit. -/
def scanExponent? : List Char → Option (Option (Bool × List Nat) × Nat)
  | e :: rest =>
    if e = 'e' || e = 'E' then
      let (negative, sign, rest) :=
        match rest with
        | '-' :: r => (true, 1, r)
        | '+' :: r => (false, 1, r)
        | r => (false, 0, r)
      let ds := digitsOf rest
      if ds.isEmpty then none else some (some (negative, ds), ds.length + sign + 1)
    else some (none, 0)
  | [] => some (none, 0)

/-- A number after its sign, and how many characters it takes. A zero at the front stands alone. -/
def scanNumber? (negative : Bool) (cs : List Char) : Option (Json × Nat) := do
  let whole := match digitsOf cs with
    | 0 :: _ => [0]
    | ds => ds
  if whole.isEmpty then none
  let rest := cs.drop whole.length
  let (fraction, n) ← scanFraction? rest
  let (exponent, m) ← scanExponent? (rest.drop n)
  let number : NumberText := { negative, whole, fraction, exponent }
  return (number.read, whole.length + n + m)

/-! ## All tokens -/

/-- The token that begins with `c`, and how many of the characters after `c` it takes. -/
def scan? (c : Char) (cs : List Char) : Option (Token × Nat) :=
  match c, cs with
  | '[', _ => some (.openItems, 0)
  | ']', _ => some (.closeItems, 0)
  | '{', _ => some (.openMembers, 0)
  | '}', _ => some (.closeMembers, 0)
  | ',', _ => some (.comma, 0)
  | ':', _ => some (.colon, 0)
  | '"', cs => do
    let (units, n) ← scanUnits cs [] 0
    return (.text ((joinUnits units.reverse).map String.ofList), n)
  | 'n', 'u' :: 'l' :: 'l' :: _ => some (.scalar .null, 3)
  | 't', 'r' :: 'u' :: 'e' :: _ => some (.scalar (.bool true), 3)
  | 'f', 'a' :: 'l' :: 's' :: 'e' :: _ => some (.scalar (.bool false), 4)
  | '-', cs => do
    let (j, n) ← scanNumber? true cs
    return (.scalar j, n)
  | c, cs => do
    let (j, n) ← scanNumber? false (c :: cs)
    return (.scalar j, n - 1)

/-- Whether a character may stand between tokens. -/
def isSpace (c : Char) : Bool := c = ' ' || c = '\t' || c = '\n' || c = '\r'

/-- The tokens of a text, after those already found, which are given last first. -/
def tokensFrom (cs : List Char) (done : List Token) : Option (List Token) :=
  match cs with
  | [] => some done.reverse
  | c :: cs =>
    if isSpace c then tokensFrom cs done
    else
      match scan? c cs with
      | none => none
      | some (t, n) => tokensFrom (cs.drop n) (t :: done)
termination_by cs.length
decreasing_by
  · simp
  · simp only [List.length_drop, List.length_cons]; omega

def tokens? (text : String) : Option (List Token) := tokensFrom text.toList []

end Json
end Floodgate
