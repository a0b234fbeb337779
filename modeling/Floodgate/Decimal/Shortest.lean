/-!
# The fewest digits that identify a number

A finite double is `m * 2 ^ q`. All reals nearer to it than to its neighbours read back as the same
double; the ends of that interval belong to it when `m` is even. `Magnitude.shortest` finds the
decimal in the interval with the fewest digits, and among those the nearest to the value. It tries
one digit, two digits, and so on: if any decimal of so many digits lies in the interval, one of the
two that enclose the value does. Everything is exact arithmetic on natural numbers.
-/

set_option autoImplicit false

namespace Floodgate
namespace Decimal

/-- A finite value without its sign, `mantissa * 2 ^ exponent`. -/
structure Magnitude where
  mantissa : Nat
  exponent : Int
  /-- The gap to the next smaller double is half the gap to the next larger one. -/
  narrowBelow : Bool
  deriving DecidableEq

/-- The number of fractions a double can hold, `2 ^ 52`. -/
def fractionSize : Nat := 0x10000000000000

def Magnitude.ofFloat (x : Float) : Magnitude :=
  let bits := x.toBits.toNat
  let biased : Nat := bits / fractionSize % 0x800
  let fraction : Nat := bits % fractionSize
  if biased = 0 then
    { mantissa := fraction, exponent := -1074, narrowBelow := false }
  else
    { mantissa := fractionSize + fraction, exponent := (biased : Int) - 1075
      narrowBelow := fraction = 0 && 1 < biased }

def isNegative (x : Float) : Bool := 0x8000000000000000 ≤ x.toBits.toNat

/-- A decimal, `digits * 10 ^ exponent`. -/
structure Digits where
  digits : Nat
  exponent : Int
  deriving DecidableEq, Repr

/-- Which of two equally near decimals is taken. -/
inductive Tie where
  | even
  | up
  deriving DecidableEq

/-- Compares `a * 10 ^ i` with `n * 2 ^ j`. -/
def compareScaled (a : Nat) (i : Int) (n : Nat) (j : Int) : Ordering :=
  compare (a * Nat.pow 10 i.toNat * Nat.pow 2 (-j).toNat)
    (n * Nat.pow 2 j.toNat * Nat.pow 10 (-i).toNat)

namespace Magnitude

/-- Whether a decimal reads back as this magnitude. -/
def readsBack (x : Magnitude) (d : Digits) : Bool :=
  let low := if x.narrowBelow then 4 * x.mantissa - 1 else 4 * x.mantissa - 2
  let high := 4 * x.mantissa + 2
  let closed := x.mantissa % 2 = 0
  let fromLow := compareScaled d.digits d.exponent low (x.exponent - 2)
  let toHigh := compareScaled d.digits d.exponent high (x.exponent - 2)
  (fromLow = .gt || (closed && fromLow = .eq)) && (toHigh = .lt || (closed && toHigh = .eq))

/-- The least `k` with the value below `10 ^ k`. The logarithm gives it up to two. -/
def scale (x : Magnitude) : Int :=
  let guess := ((x.mantissa.log2 : Int) + x.exponent) * 30103 / 100000
  ((List.range 4).map fun i : Nat => guess + (i : Int)).find?
    (fun k => compareScaled 1 k x.mantissa x.exponent = .gt) |>.getD (guess + 4)

/-- The nearer of the decimals with exponent `e` that enclose the value, of those that read back. -/
def onGrid (x : Magnitude) (tie : Tie) (e : Int) : Option Digits :=
  let numerator := x.mantissa * Nat.pow 2 x.exponent.toNat * Nat.pow 10 (-e).toNat
  let denominator := Nat.pow 2 (-x.exponent).toNat * Nat.pow 10 e.toNat
  let below := numerator / denominator
  let lower : Digits := { digits := below, exponent := e }
  let upper : Digits := { digits := below + 1, exponent := e }
  match x.readsBack lower && below ≠ 0, x.readsBack upper with
  | false, false => none
  | true, false => some lower
  | false, true => some upper
  | true, true =>
    match compare (2 * (numerator % denominator)) denominator, tie with
    | .lt, _ => some lower
    | .gt, _ => some upper
    | .eq, .up => some upper
    | .eq, .even => some (if below % 2 = 0 then lower else upper)

/-- The exact value, should no short decimal be found. -/
def exact (x : Magnitude) : Digits :=
  if 0 ≤ x.exponent then { digits := x.mantissa * Nat.pow 2 x.exponent.toNat, exponent := 0 }
  else { digits := x.mantissa * Nat.pow 5 (-x.exponent).toNat, exponent := x.exponent }

/-- Takes factors of ten out of the digits, at most `fuel` of them. -/
def stripZeros (fuel : Nat) (d : Digits) : Digits :=
  match fuel with
  | 0 => d
  | fuel + 1 =>
    if d.digits ≠ 0 && d.digits % 10 = 0 then
      stripZeros fuel { digits := d.digits / 10, exponent := d.exponent + 1 }
    else d

/-- The shortest decimal that reads back, of those the nearest. Seventeen digits always suffice. -/
def shortest (x : Magnitude) (tie : Tie) : Digits :=
  if x.mantissa = 0 then { digits := 0, exponent := 0 }
  else
    let k := x.scale
    let found := (List.range 17).findSome? fun n : Nat => x.onGrid tie (k - ((n : Int) + 1))
    stripZeros 20 (found.getD x.exact)

end Magnitude
end Decimal
end Floodgate
