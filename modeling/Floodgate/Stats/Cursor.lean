import Floodgate.Stats.Store

/-!
# Windows in succession

A cursor runs over a range in windows of equal length, from the slot of its first time on. A
window that would reach past the end is not produced. Each window is computed when it is asked
for, from the series the resource had when the cursor was made.
-/

set_option autoImplicit false

namespace Floodgate

/-- What is left of a range to run over. -/
structure Cursor where
  series : Option (Handle Resource)
  next : Nat
  stop : Nat
  /-- The length of a window; a cursor of length zero has come to its end. -/
  windowMs : Nat

namespace Cursor

def nextStop? (c : Cursor) : Option Nat :=
  if c.windowMs = 0 then none
  else (Word.add? c.next c.windowMs).filter (· ≤ c.stop)

/-- The next window and the cursor after it. -/
def next? (s : StatStore) (c : Cursor) : Option (Window × Cursor) :=
  c.nextStop?.map fun stop =>
    (s.windowOf (c.series.bind s.held?) c.next stop, { c with next := stop })

/-- At most so many of the windows that are left. -/
def take (s : StatStore) : Nat → Cursor → List Window
  | 0, _ => []
  | n + 1, c =>
    match c.next? s with
    | some (w, c) => w :: take s n c
    | none => []

theorem lt_of_nextStop? {c : Cursor} {stop : Nat} (h : c.nextStop? = some stop) :
    c.next < stop ∧ stop ≤ c.stop := by
  unfold nextStop? at h
  split at h
  · cases h
  · obtain ⟨hadd, hle⟩ := Option.filter_eq_some_iff.mp h
    have hstop := Word.eq_add_of_add? hadd
    simp only [decide_eq_true_eq] at hle
    omega

def toList (s : StatStore) (c : Cursor) : List Window :=
  match _h : c.nextStop? with
  | some stop =>
    s.windowOf (c.series.bind s.held?) c.next stop :: toList s { c with next := stop }
  | none => []
termination_by c.stop - c.next
decreasing_by
  have := lt_of_nextStop? _h
  omega

end Cursor

namespace StatStore

/-- Runs over the traffic of a resource in `[start, stop)`, in windows of so many slots. -/
def cursor (s : StatStore) (r : Resource) (start stop slots : Nat) : Cursor :=
  if stop ≤ start || slots = 0 then { series := none, next := 0, stop := 0, windowMs := 0 }
  else {
    series := s.series.handle? r
    next := s.grid.floor start
    stop := stop
    windowMs := Word.mulSaturating slots s.grid.slotMs }

/-- The traffic of a resource in `[start, stop)`, in windows of so many slots. -/
def windows (s : StatStore) (r : Resource) (start stop slots : Nat) : List Window :=
  (s.cursor r start stop slots).toList s

end StatStore
end Floodgate
