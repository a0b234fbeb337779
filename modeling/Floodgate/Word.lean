/-!
# Counters of 64 bits

Times are milliseconds and counters are requests; both are natural numbers below `2 ^ 64`. Plain
`Nat` addition and multiplication are used wherever the result stays below the limit. This file
holds the operations for the places where it may not: a product that stops at the greatest word,
a sum that starts again at zero, a sum that is refused. Truncated subtraction needs no operation of
its own, for `Nat` subtraction already stops at zero.
-/

set_option autoImplicit false

namespace Floodgate
namespace Word

/-- The number of words, `2 ^ 64`. -/
def size : Nat := 0x10000000000000000

def greatest : Nat := 0xffffffffffffffff

/-- The number of halves that a word can begin or end with, `2 ^ 32`. -/
def halfSize : Nat := 0x100000000

/-- The number of signed words that are not negative, `2 ^ 63`. -/
def signedSize : Int := 0x8000000000000000

def isSigned (i : Int) : Bool := decide (-signedSize ≤ i) && decide (i < signedSize)

/-- The product, or the greatest word where the product is larger. -/
def mulSaturating (a b : Nat) : Nat := min (a * b) greatest

/-- The sum modulo `2 ^ 64`. That is what a counter holds after it has gone round, and what a program
goes on with that is built without checks of its sums. -/
def addWrapping (a b : Nat) : Nat := (a + b) % size

/-- The sum, unless it leaves the words. -/
def add? (a b : Nat) : Option Nat := if a + b < size then some (a + b) else none

def divCeil (a b : Nat) : Nat := (a + b - 1) / b

theorem add?_eq_some_iff {a b c : Nat} : add? a b = some c ↔ a + b < size ∧ a + b = c := by
  unfold add?
  split <;> simp [*]

theorem add?_eq_none_iff {a b : Nat} : add? a b = none ↔ size ≤ a + b := by
  unfold add?
  split <;> simp [*]
  omega

theorem eq_add_of_add? {a b c : Nat} (h : add? a b = some c) : c = a + b :=
  (add?_eq_some_iff.mp h).2.symm

theorem addWrapping_of_lt {a b : Nat} (h : a + b < size) : addWrapping a b = a + b :=
  Nat.mod_eq_of_lt h

theorem addWrapping_lt (a b : Nat) : addWrapping a b < size := Nat.mod_lt _ (by decide)

end Word
end Floodgate
