import Floodgate.Word

/-!
# Clocks

Time is read from a clock, in milliseconds. A reading may fail. The clock here moves only when it is
told to, and can be told to fail the next time it is read.
-/

set_option autoImplicit false

namespace Floodgate

inductive ClockError where
  | beforeEpoch
  deriving DecidableEq, Repr

def ClockError.message : ClockError → String
  | beforeEpoch => "system clock reads before the Unix epoch"

/-- A clock that is moved by hand. -/
structure Clock where
  now : Nat
  failing : Bool := false
  deriving DecidableEq, Repr

namespace Clock

/-- Reads the clock. A failure spends itself. -/
def read (c : Clock) : Except ClockError Nat × Clock :=
  if c.failing then (.error .beforeEpoch, { c with failing := false }) else (.ok c.now, c)

def set (c : Clock) (now : Nat) : Clock := { c with now }

/-- Moves the clock forward, past the last time back to zero. -/
def advance (c : Clock) (ms : Nat) : Clock := { c with now := Word.addWrapping c.now ms }

/-- Lets the next reading fail. -/
def failNext (c : Clock) : Clock := { c with failing := true }

end Clock
end Floodgate
