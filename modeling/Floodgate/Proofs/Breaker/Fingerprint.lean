import Floodgate.Proofs.Breaker.Run
import Mathlib.Data.Nat.Bitwise

/-!
# Phases with the same fingerprint

A fingerprint has half the bits of a phase, so there are phases that share one. How far apart they
are is what the halves of the word say. The upper half holds the state and the upper bits of the
time, twenty-seven bits in all, and is laid over the lower half of the time. So phases that share a
fingerprint agree in the five upper bits of the lower half; and if their upper bits of the time are
the same, they agree in its twenty-four lower bits as well. In either case they lie `2 ^ 24`
milliseconds apart, which is more than four and a half hours (`add_gap_le_of_fingerprint_eq`).
-/

set_option autoImplicit false

namespace Floodgate
namespace Phase

variable {p q : Phase}

/-- The least time between two phases that share a fingerprint, `2 ^ 24`. -/
def fingerprintGap : Nat := 0x1000000

/-- The state and the upper bits of the time are laid over the lower bits of the time. -/
theorem fingerprint_eq (h : p.since < timeSize) :
    p.fingerprint = p.since % Word.halfSize ^^^
      (p.state.code * fingerprintGap + p.since / Word.halfSize) := by
  have hcode := code_lt p.state
  have hlower : p.pack % Word.halfSize = p.since % Word.halfSize := by
    simp only [pack, timeSize, Word.halfSize] at *
    omega
  have hupper : p.pack / Word.halfSize =
      p.state.code * fingerprintGap + p.since / Word.halfSize := by
    simp only [pack, timeSize, Word.halfSize, fingerprintGap] at *
    omega
  have hfits : p.pack / Word.halfSize % Word.halfSize = p.pack / Word.halfSize := by
    refine Nat.mod_eq_of_lt ?_
    rw [hupper]
    simp only [timeSize, Word.halfSize, fingerprintGap] at *
    omega
  have hhalves := Nat.xor_mod_two_pow (a := p.pack) (b := p.pack / Word.halfSize) (n := 32)
  rw [fingerprint, show Word.halfSize = 2 ^ 32 from rfl] at *
  rw [hhalves, hlower, hfits, hupper]

/-! ## Words that are laid over each other -/

section Overlaid

variable {a b c d : Nat} (h : a ^^^ c = b ^^^ d)
include h

/-- What is laid over the lower bits of two words leaves the upper bits as they are. -/
theorem div_eq_of_xor_eq (n : Nat) (hc : c < 2 ^ n) (hd : d < 2 ^ n) : a / 2 ^ n = b / 2 ^ n := by
  have hupper := congrArg (· / 2 ^ n) h
  simpa only [Nat.xor_div_two_pow, Nat.div_eq_of_lt hc, Nat.div_eq_of_lt hd, Nat.xor_zero]
    using hupper

/-- The same bits, laid over the lower bits of two words, give the same only if these are the
same. -/
theorem mod_eq_of_xor_eq (n : Nat) (hcd : c % 2 ^ n = d % 2 ^ n) : a % 2 ^ n = b % 2 ^ n := by
  have hlower := congrArg (· % 2 ^ n) h
  simp only [Nat.xor_mod_two_pow, hcd] at hlower
  exact Nat.xor_left_inj.mp hlower

end Overlaid

/-! ## How far apart -/

theorem code_injective {s s' : BreakerState} (h : s.code = s'.code) : s = s' :=
  Option.some.inj ((ofCode?_code s).symm.trans ((congrArg _ h).trans (ofCode?_code s')))

theorem code_le (s : BreakerState) : s.code ≤ 4 := by cases s <;> decide

/-- Phases of the same time have the same fingerprint only if they are the same. -/
theorem eq_of_fingerprint_eq_of_since_eq (hp : p.since < timeSize)
    (h : p.fingerprint = q.fingerprint) (hsince : p.since = q.since) : p = q := by
  rw [fingerprint_eq hp, fingerprint_eq (hsince ▸ hp), hsince] at h
  have hupper := Nat.xor_right_injective h
  have hcode : p.state.code = q.state.code := by
    simp only [fingerprintGap] at hupper
    omega
  cases p
  cases q
  cases code_injective hcode
  cases hsince
  rfl

/-- **Phases that share a fingerprint are far apart**, unless they are the same. -/
theorem add_gap_le_of_fingerprint_eq (hq : q.since < timeSize) (hle : p.since ≤ q.since)
    (hne : p ≠ q) (h : p.fingerprint = q.fingerprint) :
    p.since + fingerprintGap ≤ q.since := by
  have hp : p.since < timeSize := Nat.lt_of_le_of_lt hle hq
  have hsince : p.since ≠ q.since := fun e => hne (eq_of_fingerprint_eq_of_since_eq hp h e)
  have hcode := code_le p.state
  have hcode' := code_le q.state
  rw [fingerprint_eq hp, fingerprint_eq hq] at h
  have hupper := div_eq_of_xor_eq h 27
    (by simp only [fingerprintGap, timeSize, Word.halfSize] at *; omega)
    (by simp only [fingerprintGap, timeSize, Word.halfSize] at *; omega)
  by_cases hhalf : p.since / Word.halfSize = q.since / Word.halfSize
  · have hlower := mod_eq_of_xor_eq h 24
      (by simp only [fingerprintGap, hhalf] at *; omega)
    simp only [fingerprintGap, Word.halfSize] at *
    omega
  · -- the upper bits have moved on, while five bits of the lower half are the same
    simp only [fingerprintGap, Word.halfSize] at *
    omega

end Phase
end Floodgate
