import Floodgate.Admission.Response
import Floodgate.Breaker.Registry
import Floodgate.Clock
import Floodgate.Limiter
import Floodgate.Resource.Key
import Floodgate.Rule.Loader

/-!
# The gate

Each request passes the limiter and then the breakers. A request that is let through holds a
`Permit`, which is given back once with the outcome: the unit of concurrency is released, and the
outcome is counted under the resource of the lease and, if that is another, under the resource of
the breaker. A permit that is dropped without an outcome counts as completed, and as failed if it
was a probe.

A clock that cannot be read never turns a request away: the request passes, and nothing is
counted.
-/

set_option autoImplicit false

namespace Floodgate

inductive Blocked where
  | rateLimit (resource : Resource) (axis : LimitAxis)
  | circuitBreaker (resource : Resource) (state : BreakerState)
  deriving DecidableEq, Repr

namespace Blocked

def resource : Blocked → Resource
  | rateLimit r _ => r
  | circuitBreaker r _ => r

def message : Blocked → String
  | rateLimit r axis => r.key ++ " exceeded its " ++ axis.label ++ " limit"
  | circuitBreaker r state => r.key ++ " is circuit broken (" ++ state.name ++ ")"

end Blocked

/-- A denied request: the reason, and the answer. -/
structure Denial where
  reason : Blocked
  response : DenyResponse
  deriving DecidableEq, Repr

/-- What a request that was let through is held to. -/
structure Tracked where
  lease : Lease
  breaker : Option (Handle Resource)
  probe : Bool
  admittedAt : Nat

/-- Held by a request until its outcome is known. -/
inductive Permit where
  /-- Nothing was counted, and nothing will be. -/
  | untracked
  | tracked (t : Tracked)

namespace Permit

def tracked? : Permit → Option Tracked
  | untracked => none
  | tracked t => some t

def isProbe (p : Permit) : Bool := p.tracked?.any (·.probe)

def resource? (p : Permit) : Option Resource := p.tracked?.map (·.lease.resource)

def breaker? (p : Permit) : Option (Handle Resource) := p.tracked?.bind (·.breaker)

end Permit

/-- The answer of the gate to a request. -/
inductive Admission where
  | permit (p : Permit)
  | deny (d : Denial)

/-- Everything admission depends on. -/
structure Gate where
  book : RuleBook
  stats : StatStore
  breakers : Registry
  clock : Clock

namespace Gate

def new (book : RuleBook) (stats : StatStore) (clock : Clock) : Gate :=
  { book, stats, clock, breakers := Registry.ofBook book }

/-! ## Rules -/

/-- Tells the breakers of changes. -/
def loader : Loader Registry := ({} : Loader Registry).withListener Registry.onRulesChanged

/-- Applies a rule document. Says whether the rules changed. -/
def applyRule (g : Gate) (raw : RawRule) : Bool × Gate :=
  let (changed, book, breakers) := loader.apply raw (g.book, g.breakers)
  (changed, { g with book, breakers })

/-- Applies rule documents one after another. Says how many changed the rules. -/
def applyRules (g : Gate) (raws : List RawRule) : Nat × Gate :=
  let (count, book, breakers) := loader.applyAll raws (g.book, g.breakers)
  (count, { g with book, breakers })

/-! ## Admission -/

def limitDenial (g : Gate) (resource : Resource) (axis : LimitAxis) (rule : LimitRule) :
    Denial where
  reason := .rateLimit resource axis
  response := .rateLimited rule.response ((g.book.limits.get? .global).map (·.rule.response))

def breakerDenial (g : Gate) (h : Handle Resource) (state : BreakerState) : Denial :=
  match g.breakers.held? h with
  | some b =>
    { reason := .circuitBreaker b.resource state
      response := .circuitBroken b.rule.response }
  | none =>
    { reason := .circuitBreaker h.key state, response := .circuitBroken {} }

/-- Decides a request that holds a lease. If a breaker turns it away, the lease goes back. -/
def enterLeased (g : Gate) (lease : Lease) (candidates : List Resource) (now : Nat) (draw : Float) :
    Admission × Gate :=
  let (verdict, breakers, stats) := g.breakers.permit g.book g.stats candidates now draw
  let g := { g with breakers, stats }
  let tracked (breaker : Option (Handle Resource)) (probe : Bool) : Permit :=
    .tracked { lease, breaker, probe, admittedAt := now }
  match verdict with
  | .unrestricted => (.permit (tracked none false), g)
  | .permit h probe => (.permit (tracked (some h) probe), g)
  | .reject h state =>
    (.deny (g.breakerDenial h state), { g with stats := Limiter.release stats lease })

def enterAt (g : Gate) (identity : Identity) (now : Nat) (draw : Float) : Admission × Gate :=
  let candidates := identity.candidates
  let (decision, stats) := Limiter.permit g.book g.stats candidates now
  let g := { g with stats }
  match decision with
  | .allowed lease => g.enterLeased lease candidates now draw
  | .denied resource axis rule => (.deny (g.limitDenial resource axis rule), g)

/-- Decides a request. `draw` is a number from `[0, 1)`, for a breaker that recovers gradually. -/
def enter (g : Gate) (identity : Identity) (draw : Float) : Admission × Gate :=
  let (reading, clock) := g.clock.read
  let g := { g with clock }
  match reading with
  | .ok now => g.enterAt identity now draw
  | .error _ => (.permit .untracked, g)

/-! ## Outcomes -/

def recordOutcome (stats : StatStore) (r : Resource) (failed : Bool) (latency now : Nat) :
    StatStore :=
  let stats := stats.incr r .completed now
  let stats := if failed then stats.incr r .error now else stats
  stats.recordLatency r latency now

/-- Takes the outcome of a request at a time; `none` if the permit was dropped. -/
def finishAt (g : Gate) (t : Tracked) (success : Option Bool) (now : Nat) : Gate :=
  let failed := success = some false
  let latency := now - t.admittedAt
  let stats := recordOutcome (Limiter.release g.stats t.lease) t.lease.resource failed latency now
  match t.breaker with
  | none => { g with stats }
  | some h =>
    let stats :=
      if h.key = t.lease.resource then stats else recordOutcome stats h.key failed latency now
    if t.probe then
      let (breakers, stats) := g.breakers.onProbeOutcome h (success.getD false) stats now
      { g with breakers, stats }
    else { g with stats }

/-- Takes a permit back, with the outcome of the request or without. A clock that cannot be read
stands at the time of admission. -/
def finish (g : Gate) (p : Permit) (success : Option Bool) : Gate :=
  match p with
  | .untracked => g
  | .tracked t =>
    let (reading, clock) := g.clock.read
    { g with clock }.finishAt t success (match reading with
      | .ok now => now
      | .error _ => t.admittedAt)

def complete (g : Gate) (p : Permit) (success : Bool) : Gate := g.finish p (some success)

def drop (g : Gate) (p : Permit) : Gate := g.finish p none

end Gate
end Floodgate
