import Floodgate.Breaker.State

/-!
# Slots

Traffic is counted in slots of equal length. A slot counts requests by outcome, sums up and bounds
their latencies, keeps the greatest number of requests in flight, and remembers the state a
breaker was last seen in. The counters by themselves are a `Tally`.
-/

set_option autoImplicit false

namespace Floodgate

/-- What became of a request. -/
inductive Outcome where
  | started
  | completed
  | error
  | blockedByLimiter
  | blockedByBreaker
  deriving DecidableEq, Repr

namespace Outcome

def name : Outcome → String
  | started => "started"
  | completed => "completed"
  | error => "error"
  | blockedByLimiter => "blockedByLimiter"
  | blockedByBreaker => "blockedByBreaker"

def all : List Outcome := [started, completed, error, blockedByLimiter, blockedByBreaker]

end Outcome

/-- How many requests had which outcome. -/
structure Tally where
  started : Nat := 0
  completed : Nat := 0
  errors : Nat := 0
  blockedByLimiter : Nat := 0
  blockedByBreaker : Nat := 0
  deriving DecidableEq, Repr

namespace Tally

def count (t : Tally) : Outcome → Nat
  | .started => t.started
  | .completed => t.completed
  | .error => t.errors
  | .blockedByLimiter => t.blockedByLimiter
  | .blockedByBreaker => t.blockedByBreaker

def incr (t : Tally) : Outcome → Tally
  | .started => { t with started := t.started + 1 }
  | .completed => { t with completed := t.completed + 1 }
  | .error => { t with errors := t.errors + 1 }
  | .blockedByLimiter => { t with blockedByLimiter := t.blockedByLimiter + 1 }
  | .blockedByBreaker => { t with blockedByBreaker := t.blockedByBreaker + 1 }

def add (t u : Tally) : Tally where
  started := t.started + u.started
  completed := t.completed + u.completed
  errors := t.errors + u.errors
  blockedByLimiter := t.blockedByLimiter + u.blockedByLimiter
  blockedByBreaker := t.blockedByBreaker + u.blockedByBreaker

theorem count_incr (t : Tally) (o o' : Outcome) :
    (t.incr o).count o' = t.count o' + if o' = o then 1 else 0 := by
  cases o <;> cases o' <;> rfl

@[simp] theorem count_add (t u : Tally) (o : Outcome) :
    (t.add u).count o = t.count o + u.count o := by
  cases o <;> rfl

theorem ext_count {t u : Tally} (h : ∀ o, t.count o = u.count o) : t = u := by
  obtain ⟨a, b, c, d, e⟩ := t
  obtain ⟨a', b', c', d', e'⟩ := u
  have h1 : a = a' := h .started
  have h2 : b = b' := h .completed
  have h3 : c = c' := h .error
  have h4 : d = d' := h .blockedByLimiter
  have h5 : e = e' := h .blockedByBreaker
  rw [h1, h2, h3, h4, h5]

end Tally

/-- The traffic of one resource in one slot. -/
structure Slot where
  start : Nat
  tally : Tally := {}
  /-- The sum of all latencies, modulo `2 ^ 64`. -/
  totalLatency : Nat := 0
  maxLatency : Nat := 0
  peak : Nat := 0
  /-- The state of the breaker, if one was seen. -/
  state : Option BreakerState := none
  deriving DecidableEq, Repr

namespace Slot

/-- An empty slot. The requests in flight at its creation count for its peak. -/
def new (start inFlight : Nat) : Slot := { start, peak := inFlight }

def incr (s : Slot) (o : Outcome) : Slot := { s with tally := s.tally.incr o }

/-- Counts a started request, unless so many have started already. Says whether it was counted. -/
def tryStart (s : Slot) (budget : Nat) : Bool × Slot :=
  if s.tally.started < budget then (true, s.incr .started) else (false, s)

def recordLatency (s : Slot) (ms : Nat) : Slot :=
  { s with totalLatency := Word.addWrapping s.totalLatency ms, maxLatency := max s.maxLatency ms }

def observe (s : Slot) (inFlight : Nat) : Slot := { s with peak := max s.peak inFlight }

def recordState (s : Slot) (state : BreakerState) : Slot := { s with state := some state }

end Slot
end Floodgate
