import Floodgate.Admission.Gate
import Floodgate.Stats.Overflow

/-!
# Requests that no answer comes of

A closed breaker forms two sums that may leave the words: the end of the present slot, up to which it
looks, and the sum of the latencies on the way there. A program that is built without checks goes on
with the sum modulo `2 ^ 64`, and `Gate.enter` is that program. Built with checks it stops, and the
request gets neither a permit nor a denial (`Gate.checkedEnter`). No other request is any different.
-/

set_option autoImplicit false

namespace Floodgate

/-- A sum that leaves the words. -/
inductive Overflow where
  /-- The end of the present slot. -/
  | slotEnd
  /-- The latencies in a window. -/
  | latency
  deriving DecidableEq, Repr

/-- The first sum that leaves the words when a breaker decides a request. -/
def Breaker.overflow? (b : Breaker) (stats : StatStore) (now : Nat) : Option Overflow :=
  if b.phase.state = .closed then
    match Word.add? (stats.grid.floor now) stats.grid.slotMs with
    | none => some .slotEnd
    | some stop =>
      let start := max (stop - b.rule.monitorMs) (stats.grid.floor b.phase.since)
      if stats.overflows b.resource start stop then some .latency else none
  else none

namespace Breaker

variable {b : Breaker} {stats : StatStore} {now : Nat}

/-- A breaker has no window to look at exactly if it is closed and the present slot has no end. -/
theorem overflow?_eq_slotEnd_iff :
    b.overflow? stats now = some .slotEnd ↔
      b.phase.state = .closed ∧ Word.size ≤ stats.grid.floor now + stats.grid.slotMs := by
  unfold overflow?
  by_cases hclosed : b.phase.state = .closed
  · rw [if_pos hclosed]
    cases hadd : Word.add? (stats.grid.floor now) stats.grid.slotMs with
    | none => simp [hclosed, Word.add?_eq_none_iff.mp hadd]
    | some stop =>
      have hstop := (Word.add?_eq_some_iff.mp hadd).1
      dsimp only
      split <;> simp [hclosed, hstop]
  · rw [if_neg hclosed]
    simp [hclosed]

/-- A closed breaker that forms its sums in the words looks up to the end of the present slot. -/
theorem slotEnd_lt_of_overflow? (hclosed : b.phase.state = .closed)
    (hfits : b.overflow? stats now = none) :
    stats.grid.floor now + stats.grid.slotMs < Word.size := by
  refine Nat.lt_of_not_le fun hbeyond => ?_
  rw [overflow?_eq_slotEnd_iff.mpr ⟨hclosed, hbeyond⟩] at hfits
  cases hfits

end Breaker

/-- The first sum that leaves the words when the breakers decide a request. -/
def Registry.overflow? (g : Registry) (book : RuleBook) (stats : StatStore)
    (candidates : List Resource) (now : Nat) : Option Overflow :=
  let (h, g) := g.lookup book candidates
  (h.bind g.held?).bind fun b => b.overflow? stats now

namespace Gate

/-- The first sum that leaves the words when a request is decided at a time. The limiter forms none,
and if it turns the request away, no breaker is asked. -/
def overflowAt? (g : Gate) (identity : Identity) (now : Nat) : Option Overflow :=
  match Limiter.permit g.book g.stats identity.candidates now with
  | (.allowed _, stats) => g.breakers.overflow? g.book stats identity.candidates now
  | (.denied .., _) => none

/-- The first sum that leaves the words when a request is decided. -/
def overflow? (g : Gate) (identity : Identity) : Option Overflow :=
  match g.clock.read.1 with
  | .ok now => g.overflowAt? identity now
  | .error _ => none

theorem overflow?_of_working {g : Gate} (hf : g.clock.failing = false) (identity : Identity) :
    g.overflow? identity = g.overflowAt? identity g.clock.now := by
  simp [overflow?, Clock.read, hf]

/-- Decides a request, unless a sum leaves the words. -/
def checkedEnter (g : Gate) (identity : Identity) (draw : Float) :
    Except Overflow (Admission × Gate) :=
  match g.overflow? identity with
  | some sum => .error sum
  | none => .ok (g.enter identity draw)

end Gate
end Floodgate
