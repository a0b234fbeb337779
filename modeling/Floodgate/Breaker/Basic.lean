import Floodgate.Breaker.Transition
import Floodgate.Rule.Table
import Floodgate.Stats.Store

/-!
# Breakers

A breaker guards one resource. It follows the rule of the newest rule book it has been shown; an
older book never takes effect again. It counts the rejections since its last transition: the count
is kept together with the fingerprint of the phase it was taken in, and holds only as long as that
is the fingerprint of the present phase.

A closed breaker looks at the traffic of its resource up to the end of the present slot, as far
back as its rule says but not before the slot in which it was closed.
-/

set_option autoImplicit false

namespace Floodgate

/-- Rejections, and the fingerprint of the phase they were counted in. -/
structure Rejections where
  fingerprint : Nat := 0
  count : Nat := 0
  deriving DecidableEq, Repr

/-- The breaker of one resource. -/
structure Breaker where
  resource : Resource
  edition : Edition DegradeRule
  /-- The version of the rule book that the rule was last seen in. -/
  version : Nat := 0
  /-- The present phase. Its time is cut to what fits a word. -/
  phase : Phase := .initial
  rejections : Rejections := {}

namespace Breaker

/-- A closed breaker that has not been shown a rule book yet. -/
def new (resource : Resource) (edition : Edition DegradeRule) : Breaker := { resource, edition }

def rule (b : Breaker) : DegradeRule := b.edition.rule

/-- Shows the breaker the rule of a rule book. Says whether that is another rule than before. -/
def update (b : Breaker) (edition : Edition DegradeRule) (version : Nat) : Bool × Breaker :=
  if version < b.version then (false, b)
  else (b.edition.serial != edition.serial, { b with edition, version })

/-! ## Rejections -/

/-- The greatest number of rejections that is counted, `2 ^ 32 - 1`. -/
def rejectionLimit : Nat := 0xffffffff

/-- How many rejections are counted for a phase. -/
def rejectionsIn (b : Breaker) (p : Phase) : Nat :=
  if b.rejections.fingerprint = p.fingerprint then b.rejections.count else 0

def rejectCount (b : Breaker) : Nat := b.rejectionsIn b.phase

def recordReject (b : Breaker) : Breaker :=
  { b with rejections := {
      fingerprint := b.phase.fingerprint
      count := min (b.rejectCount + 1) rejectionLimit } }

/-! ## Requests -/

/-- The window that a breaker closed since `since` looks at. In the last slot of all times the end of
the slot is no word. A build with checks decides no request there (`Breaker.overflow?`), and without
checks the end starts again at zero. -/
def monitorWindow (b : Breaker) (stats : StatStore) (since now : Nat) : Window :=
  let stop := Word.addWrapping (stats.grid.floor now) stats.grid.slotMs
  stats.window b.resource (max (stop - b.rule.monitorMs) (stats.grid.floor since)) stop

/-- A breaker looks up to the end of the present slot, wherever that end is a word. -/
theorem monitorWindow_eq (b : Breaker) (stats : StatStore) (since now : Nat)
    (hend : stats.grid.floor now + stats.grid.slotMs < Word.size) :
    b.monitorWindow stats since now =
      stats.window b.resource
        (max (stats.grid.floor now + stats.grid.slotMs - b.rule.monitorMs)
          (stats.grid.floor since))
        (stats.grid.floor now + stats.grid.slotMs) := by
  rw [monitorWindow, Word.addWrapping_of_lt hend]

/-- The traffic a request is decided by. Only a closed breaker looks at any. -/
def watched (b : Breaker) (stats : StatStore) (now : Nat) : Window :=
  if b.phase.state = .closed then b.monitorWindow stats b.phase.since now else {}

def enter (b : Breaker) (next : Phase) (stats : StatStore) : Breaker × StatStore :=
  ({ b with phase := Phase.unpack next.pack },
    stats.recordState b.resource next.state next.since)

/-- Decides one request. The state it is decided in is recorded in the present slot. -/
def permit (b : Breaker) (stats : StatStore) (now : Nat) (draw : Float) :
    Decision × Breaker × StatStore :=
  let t := b.phase.evaluate b.rule (b.watched stats now) now draw
  let (b, stats) :=
    match t.next with
    | some next => b.enter next stats
    | none => (b, stats)
  let b := if t.decision = .reject then b.recordReject else b
  (t.decision, b, stats.recordState b.resource b.phase.state now)

/-- Takes the outcome of a probe, if the breaker still waits for one. -/
def onProbeOutcome (b : Breaker) (success : Bool) (stats : StatStore) (now : Nat) :
    Breaker × StatStore :=
  match b.phase.afterProbe? success now with
  | some next => b.enter next stats
  | none => (b, stats)

end Breaker
end Floodgate
