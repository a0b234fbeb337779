import Floodgate.Clock
import Floodgate.Json.Basic
import Floodgate.Resource.Key
import Floodgate.Stats.Store

/-!
# Housekeeping

From time to time idle resources are evicted, and the traffic of the last complete slot is
reported for every resource, in the order of resources.
-/

set_option autoImplicit false

namespace Floodgate

/-- The traffic of all resources in one slot. -/
structure Report where
  slotStart : Nat
  resources : List (Resource × Window)

/-- The figures of a window as members of a JSON object. -/
def Window.members (w : Window) : List (String × Json) :=
  [("start", .int w.start), ("end", .int w.stop), ("startedRequests", .int w.tally.started),
    ("completedRequests", .int w.tally.completed), ("errors", .int w.tally.errors),
    ("blockedByLimiter", .int w.tally.blockedByLimiter),
    ("blockedByBreaker", .int w.tally.blockedByBreaker), ("avgLatencyMs", .int w.averageLatency),
    ("maxLatencyMs", .int w.maxLatency), ("peakInFlight", .int w.peak)] ++
    (w.state?.map fun s => ("breakState", Json.str s.name)).toList

def Report.toJson (r : Report) : Json :=
  .obj [("slotStart", .int r.slotStart),
    ("resources", .arr (r.resources.map fun e => .obj (("resource", .str e.1.key) :: e.2.members)))]

namespace StatStore

def sortedResources (s : StatStore) : List Resource := Resource.sort s.resources

/-- The report of the slot before that of `now`. -/
def report (s : StatStore) (now : Nat) : Report :=
  let start := s.grid.floor now - s.grid.slotMs
  { slotStart := start
    resources := s.sortedResources.map fun r => (r, s.window r start (start + s.grid.slotMs)) }

end StatStore

/-- When resources are evicted, and how often. -/
structure Housekeeper where
  intervalSecs : Nat
  /-- How long an evicted resource was idle. -/
  idleMs : Nat
  publishing : Bool

namespace Housekeeper

/-- A housekeeper of given measures. There is at least a second between two passes. -/
def ofGiven (publishSecs idleSecs : Nat) (publishing : Bool) : Housekeeper where
  intervalSecs := max publishSecs 1
  idleMs := Word.mulSaturating idleSecs 1000
  publishing := publishing

/-- Makes one pass. Without a time nothing is done. -/
def tick (k : Housekeeper) (stats : StatStore) (clock : Clock) :
    Option Report × StatStore × Clock :=
  match clock.read with
  | (.ok now, clock) =>
    let stats := stats.evictIdle now k.idleMs
    (if k.publishing then some (stats.report now) else none, stats, clock)
  | (.error _, clock) => (none, stats, clock)

/-- Makes several passes. Gives the reports, last first. -/
def ticks (k : Housekeeper) :
    Nat → StatStore → Clock → List Report → List Report × StatStore × Clock
  | 0, stats, clock, done => (done, stats, clock)
  | n + 1, stats, clock, done =>
    let (report, stats, clock) := k.tick stats clock
    k.ticks n stats clock (report.toList ++ done)

/-- How many passes there are in a span of time, the first at its beginning. -/
def passCount (k : Housekeeper) (forMs : Nat) : Nat := forMs / (k.intervalSecs * 1000) + 1

end Housekeeper
end Floodgate
