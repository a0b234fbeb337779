import Floodgate.Word

/-!
# Numbers in text

Names and values of settings are texts that may spell numbers. An integer is digits after an
optional sign. A real number may have a fraction and an exponent besides, and infinity and the
undefined value have names.
-/

set_option autoImplicit false

namespace Floodgate
namespace Spelling

/-- The number that digits spell, if there is one and nothing else. -/
def natural? (cs : List Char) : Option Nat :=
  if cs.isEmpty || !cs.all Char.isDigit then none
  else some (cs.foldl (fun n c => n * 10 + (c.toNat - '0'.toNat)) 0)

/-- Whether there is a minus sign, and what follows the sign. -/
def signed (cs : List Char) : Bool × List Char :=
  match cs with
  | '-' :: r => (true, r)
  | '+' :: r => (false, r)
  | r => (false, r)

/-- A text that spells an integer of 64 bits. -/
def integer? (s : String) : Option Int := do
  let (negative, digits) := signed s.toList
  let n ← natural? digits
  let i : Int := if negative then -n else n
  if Word.isSigned i then some i else none

/-- A text that spells an unsigned integer of 64 bits. -/
def unsigned? (s : String) : Option Nat := do
  let digits := match s.toList with
    | '+' :: r => r
    | r => r
  let n ← natural? digits
  if n < Word.size then some n else none

/-- The double nearest to `n * 10 ^ e`. -/
def decimal (n : Nat) (e : Int) : Float :=
  -- beyond these bounds the result is zero or infinite, whatever `n` is
  if n = 0 then 0.0
  else if 400 < e then 1.0 / 0.0
  else if e < -(400 + (Nat.toDigits 10 n).length : Int) then 0.0
  else Float.ofScientific n (e < 0) e.natAbs

/-- The exponent of a real number: nothing, or a mark and digits after an optional sign. -/
def exponent? : List Char → Option Int
  | [] => some 0
  | mark :: cs =>
    if mark = 'e' || mark = 'E' then
      let (negative, digits) := signed cs
      (natural? digits).map fun (n : Nat) => if negative then -(n : Int) else n
    else none

/-- A real number without its sign. There are digits before the point or after it. -/
def magnitude? (cs : List Char) : Option Float := do
  let whole := cs.takeWhile Char.isDigit
  let (fraction, rest) := match cs.drop whole.length with
    | '.' :: r => (r.takeWhile Char.isDigit, r.dropWhile Char.isDigit)
    | r => ([], r)
  let n ← natural? (whole ++ fraction)
  let e ← exponent? rest
  return decimal n (e - fraction.length)

/-- A text that spells a real number, or infinity, or the undefined value. -/
def real? (s : String) : Option Float :=
  let (negative, rest) := signed s.toList
  let name := (String.ofList rest).toLower
  let magnitude :=
    if name = "inf" || name = "infinity" then some (1.0 / 0.0)
    else if name = "nan" then some (0.0 / 0.0)
    else magnitude? rest
  magnitude.map fun x => if negative then -x else x

end Spelling
end Floodgate
