import Floodgate.Json.Basic
import Floodgate.Word

/-!
# Numbers in JSON text

A number without point and exponent that fits 64 bits, with or without sign, is that integer.
Every other number is a double, found in two steps: the leading digits that fit a 64-bit word
become a double, and one multiplication or division by a power of ten puts the point in place.
Each step rounds, so the result may differ in its last digit from the double nearest to the text.
Digits after the first that does not fit count only for their position. A number beyond the
doubles is unreadable; one too small becomes zero.
-/

set_option autoImplicit false

namespace Floodgate
namespace Json

/-- A number as written. -/
structure NumberText where
  negative : Bool
  /-- The digits before the point. -/
  whole : List Nat
  /-- The digits after the point, if there is one. -/
  fraction : Option (List Nat)
  /-- Whether the exponent is negative, and its digits, if there is one. -/
  exponent : Option (Bool × List Nat)

/-- Appends digits to a number while it stays a 64-bit word; also says how many were appended. -/
def absorb : List Nat → Nat → Nat × Nat
  | [], n => (n, 0)
  | d :: ds, n =>
    if n * 10 + d < Word.size then
      let r := absorb ds (n * 10 + d)
      (r.1, r.2 + 1)
    else (n, 0)

/-- A power of ten as a double. -/
def powerOfTen (n : Nat) : Float := Float.ofScientific 1 false n

/-- Divides by a power of ten, in steps of `10 ^ 308`. -/
def scaleDown (x : Float) (n : Nat) : Float :=
  if n ≤ 308 then x / powerOfTen n
  else if x == 0.0 then x
  else scaleDown (x / powerOfTen 308) (n - 308)
termination_by n

/-- Multiplies by a power of ten. -/
def scale (x : Float) (e : Int) : Float :=
  if e < 0 then scaleDown x (-e).toNat
  else if e ≤ 308 then x * powerOfTen e.toNat
  else if x == 0.0 then x
  else powerOfTen 308 * powerOfTen 308

/-- The real number with a sign, or what stands for one that is too large. -/
def ofReal (negative : Bool) (x : Float) : Json :=
  match FiniteFloat.ofFloat? (if negative then -x else x) with
  | some x => .real x
  | none => .unreadable

/-- The greatest exponent that is read as such, `2 ^ 31 - 1`. -/
def exponentLimit : Nat := 0x7fffffff

/-- The number read from its digits. -/
def NumberText.read (t : NumberText) : Json :=
  let (whole, used) := absorb t.whole 0
  let dropped := t.whole.length - used
  match t.fraction, t.exponent with
  | none, none =>
    if dropped = 0 then
      if !t.negative then .int whole
      else if whole = 0 || Word.signedSize < whole then ofReal true (UInt64.ofNat whole).toFloat
      else .int (-(whole : Int))
    else ofReal t.negative (scale (UInt64.ofNat whole).toFloat dropped)
  | fraction, exponent =>
    let (significand, places) := absorb (fraction.getD []) whole
    let base : Int := (dropped : Int) - places
    let x := (UInt64.ofNat significand).toFloat
    match exponent with
    | none => ofReal t.negative (scale x base)
    | some (down, digits) =>
      let e := digits.foldl (fun n d => n * 10 + d) 0
      if exponentLimit < e then
        if significand ≠ 0 && !down then .unreadable else ofReal t.negative 0.0
      else ofReal t.negative (scale x (if down then base - e else base + e))

end Json
end Floodgate
