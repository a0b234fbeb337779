import Floodgate.Decimal.Shortest

/-!
# Decimals as text

A `Layout` holds the decisions a number format makes once the digits are known: how far the point
may lie from them before an exponent is written, whether a whole number keeps a zero after its
point, and whether an exponent that is not negative has a sign.
-/

set_option autoImplicit false

namespace Floodgate
namespace Decimal

/-- The decisions of a number format. -/
structure Layout where
  /-- A value with more digits than this before its point is written with an exponent. -/
  mostBefore : Option Nat
  /-- A value with as many zeros as this after its point, or more, is written with an exponent. -/
  zerosAfter : Option Nat
  /-- Whether a whole number without an exponent ends in a point and a zero. -/
  pointZero : Bool
  /-- Whether an exponent that is not negative begins with a plus sign. -/
  plusSign : Bool
  /-- Which of two equally short and equally near decimals is written. -/
  tie : Tie

namespace Layout

def zeros (n : Nat) : String := String.ofList (List.replicate n '0')

/-- A decimal without sign and exponent. `point` is the number of digits before the point. -/
def positional (l : Layout) (digits : List Char) (point : Int) : String :=
  if point ≤ 0 then "0." ++ zeros (-point).toNat ++ String.ofList digits
  else if digits.length ≤ point.toNat then
    String.ofList digits ++ zeros (point.toNat - digits.length) ++ if l.pointZero then ".0" else ""
  else
    String.ofList (digits.take point.toNat) ++ "." ++ String.ofList (digits.drop point.toNat)

/-- A decimal without sign, with one digit before the point and an exponent. -/
def scientific (l : Layout) (digits : List Char) (point : Int) : String :=
  let tail := digits.drop 1
  let exponent := point - 1
  String.ofList (digits.take 1) ++ (if tail.isEmpty then "" else "." ++ String.ofList tail) ++
    (if l.plusSign && 0 ≤ exponent then "e+" else "e") ++ toString exponent

def render (l : Layout) (x : Float) : String :=
  let d := (Magnitude.ofFloat x).shortest l.tie
  let digits := Nat.toDigits 10 d.digits
  let point := (digits.length : Int) + d.exponent
  let unsigned :=
    if d.digits = 0 then (if l.pointZero then "0.0" else "0")
    else if l.mostBefore.any (fun n => (n : Int) < point) ||
        l.zerosAfter.any (fun n => point ≤ -(n : Int)) then
      l.scientific digits point
    else l.positional digits point
  (if isNegative x then "-" else "") ++ unsigned

end Layout

/-- Digits and a point only: `2`, `0.5`, `-0`. -/
def plain : Layout :=
  { mostBefore := none, zerosAfter := none, pointZero := false, plusSign := false, tie := .up }

end Decimal
end Floodgate
