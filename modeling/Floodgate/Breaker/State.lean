import Floodgate.Word

/-!
# Breaker states

A breaker is closed, open, or on its way back, and remembers since when. State and time together
are a `Phase`. A phase fits one 64-bit word: the code of the state in the top byte, the time in
the other fifty-six bits. A word whose top byte is no code is read as closed.
-/

set_option autoImplicit false

namespace Floodgate

inductive BreakerState where
  /-- All requests pass. -/
  | closed
  /-- None pass. -/
  | open
  /-- A growing share of them passes. -/
  | resumeGradually
  /-- One has passed, and its outcome is awaited. -/
  | resumeDetectively
  deriving DecidableEq, Repr

namespace BreakerState

def code : BreakerState → Nat
  | closed => 1
  | «open» => 2
  | resumeGradually => 3
  | resumeDetectively => 4

def ofCode? : Nat → Option BreakerState
  | 1 => some closed
  | 2 => some .open
  | 3 => some resumeGradually
  | 4 => some resumeDetectively
  | _ => none

def name : BreakerState → String
  | closed => "CLOSED"
  | «open» => "OPEN"
  | resumeGradually => "RESUME_GRADUALLY"
  | resumeDetectively => "RESUME_DETECTIVELY"

def all : List BreakerState := [closed, .open, resumeGradually, resumeDetectively]

end BreakerState

/-- A state, and the time at which it was entered. -/
structure Phase where
  state : BreakerState
  since : Nat
  deriving DecidableEq, Repr

namespace Phase

/-- The number of times a word can hold, `2 ^ 56`. -/
def timeSize : Nat := 0x100000000000000

def initial : Phase := { state := .closed, since := 0 }

def pack (p : Phase) : Nat := p.state.code * timeSize + p.since % timeSize

def unpack (word : Nat) : Phase where
  state := (BreakerState.ofCode? (word / timeSize % 0x100)).getD .closed
  since := word % timeSize

/-- Thirty-two bits that stand for the phase: the two halves of its word, laid over each other. -/
def fingerprint (p : Phase) : Nat := (p.pack ^^^ (p.pack / Word.halfSize)) % Word.halfSize

end Phase
end Floodgate
