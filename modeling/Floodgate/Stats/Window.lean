import Floodgate.Stats.Slot

/-!
# Windows

A window is what a run of slots holds together. Counts are summed, maxima are taken, and the breaker
state is that of the latest slot that has one, in whatever order the slots are merged.
-/

set_option autoImplicit false

namespace Floodgate

/-- The traffic of one resource in `[start, stop)`. -/
structure Window where
  start : Nat := 0
  stop : Nat := 0
  tally : Tally := {}
  totalLatency : Nat := 0
  maxLatency : Nat := 0
  peak : Nat := 0
  /-- The last breaker state, and the start of the slot it is from. -/
  lastState : Option (Nat × BreakerState) := none
  deriving DecidableEq, Repr

namespace Window

def empty (start stop : Nat) : Window := { start, stop }

/-- The later of two breaker states; of two from the same slot the first. -/
def laterState : Option (Nat × BreakerState) → Option (Nat × BreakerState) →
    Option (Nat × BreakerState)
  | none, b => b
  | some a, none => some a
  | some a, some b => if a.1 < b.1 then some b else some a

/-- Merges a slot. The sum of the latencies is one that a build with checks may refuse to form
(`Window.overflows`); this is what it is without checks, and what it is with them unless refused. -/
def merge (w : Window) (s : Slot) : Window :=
  { w with
    tally := w.tally.add s.tally
    totalLatency := Word.addWrapping w.totalLatency s.totalLatency
    maxLatency := max w.maxLatency s.maxLatency
    peak := max w.peak s.peak
    lastState := laterState w.lastState (s.state.map fun state => (s.start, state)) }

def mergeAll (w : Window) (slots : List Slot) : Window := slots.foldl merge w

/-- The latency per completed request, rounded down; zero if none completed. -/
def averageLatency (w : Window) : Nat := w.totalLatency / w.tally.completed

/-- The breaker state of the latest slot that has one. -/
def state? (w : Window) : Option BreakerState := w.lastState.map Prod.snd

/-- Errors per completed request; zero if none completed. -/
def errorRatio (w : Window) : Float :=
  if w.tally.completed = 0 then 0.0
  else (UInt64.ofNat w.tally.errors).toFloat / (UInt64.ofNat w.tally.completed).toFloat

end Window
end Floodgate
