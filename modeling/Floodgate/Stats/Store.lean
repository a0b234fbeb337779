import Floodgate.Resource.Basic
import Floodgate.Roster
import Floodgate.Stats.Series

/-!
# Statistics of all resources

The store keeps a series for every resource that has traffic. A `Grid` says how long slots are and
how many are kept; both are at least one. Every operation names the time at which it takes place,
and lands in the slot of that time.

A request that took a unit of concurrency holds a handle of the series it took it from, and gives
it back there. Idle resources are evicted, but never while they have anything in flight.
-/

set_option autoImplicit false

namespace Floodgate

/-! ## The grid of slots -/

/-- The length of slots, and how many are kept. -/
structure Grid where
  slotMs : Nat
  retained : Nat
  slotMs_pos : 0 < slotMs
  retained_pos : 0 < retained

namespace Grid

/-- The grid of given measures, zero being raised to one. -/
def ofGiven (slotMs retained : Nat) : Grid where
  slotMs := max slotMs 1
  retained := max retained 1
  slotMs_pos := by omega
  retained_pos := by omega

/-- The start of the slot of a time. -/
def floor (g : Grid) (now : Nat) : Nat := now - now % g.slotMs

/-- How far behind the newest slot a slot is dropped. -/
def retentionMs (g : Grid) : Nat := Word.mulSaturating g.retained g.slotMs

theorem floor_le (g : Grid) (now : Nat) : g.floor now ≤ now := Nat.sub_le _ _

theorem floor_eq (g : Grid) (now : Nat) : g.floor now = g.slotMs * (now / g.slotMs) := by
  have h := Nat.div_add_mod now g.slotMs
  simp only [floor]
  omega

theorem retentionMs_pos (g : Grid) : 0 < g.retentionMs := by
  have h : 0 < g.retained * g.slotMs := Nat.mul_pos g.retained_pos g.slotMs_pos
  simp only [retentionMs, Word.mulSaturating, Word.greatest]
  omega

end Grid

/-! ## The store -/

/-- The traffic of all resources. -/
structure StatStore where
  grid : Grid
  series : Roster Resource Series := .empty

namespace StatStore

def new (slotMs retained : Nat) : StatStore := { grid := Grid.ofGiven slotMs retained }

def get? (s : StatStore) (r : Resource) : Option Series := s.series.current? r

/-- The series that a handle names, evicted or not. -/
def held? (s : StatStore) (h : Handle Resource) : Option Series := s.series.get? h

def resources (s : StatStore) : List Resource := s.series.keys

/-- The store in which a resource has a series, and the handle of that series. -/
def track (s : StatStore) (r : Resource) (now : Nat) : Handle Resource × StatStore :=
  match s.series.handle? r with
  | some h => (h, s)
  | none =>
    (⟨r, (s.series.place r).holders.length⟩,
      { s with series := s.series.install r (Series.new now) })

def modify (s : StatStore) (h : Handle Resource) (f : Series → Series) : StatStore :=
  { s with series := s.series.modify h f }

/-- Changes the slot of a time in the series that a handle names. -/
def updateSlot (s : StatStore) (h : Handle Resource) (now : Nat) (f : Slot → Slot) : StatStore :=
  s.modify h fun series => series.updateSlot (s.grid.floor now) s.grid.retentionMs f

/-! ## Writing -/

def incr (s : StatStore) (r : Resource) (o : Outcome) (now : Nat) : StatStore :=
  let (h, s) := s.track r now
  (s.modify h (·.touch now)).updateSlot h now (·.incr o)

/-- Counts a started request, unless so many have started in its slot already. Says whether it was
counted. -/
def tryStart (s : StatStore) (r : Resource) (budget now : Nat) : Bool × StatStore :=
  let (h, s) := s.track r now
  let s := s.modify h (·.touch now)
  let slot := (s.held? h).map fun series => (series.slotAt (s.grid.floor now) s.grid.retentionMs).1
  (slot.any fun slot => (slot.tryStart budget).1,
    s.updateSlot h now fun slot => (slot.tryStart budget).2)

/-- Takes one unit of concurrency, unless the limit is reached. -/
def acquire (s : StatStore) (r : Resource) (limit : Option Nat) (now : Nat) :
    Option (Handle Resource) × StatStore :=
  let (h, s) := s.track r now
  let s := s.modify h (·.touch now)
  if (s.held? h).any fun series => (series.acquire? limit).isSome then
    (some h, s.modify h (·.acquire))
  else (none, s)

def acquireUnbounded (s : StatStore) (r : Resource) (now : Nat) : Handle Resource × StatStore :=
  let (h, s) := s.track r now
  (h, s.modify h fun series => (series.touch now).acquire)

/-- Gives one unit of concurrency back to the series it was taken from. -/
def release (s : StatStore) (h : Handle Resource) : StatStore := s.modify h (·.release)

/-- Lets the present number of requests in flight count for the peak of the slot. -/
def observe (s : StatStore) (h : Handle Resource) (now : Nat) : StatStore :=
  s.updateSlot h now fun slot =>
    slot.observe (((s.held? h).map Series.inFlight).getD 0)

def recordLatency (s : StatStore) (r : Resource) (ms now : Nat) : StatStore :=
  let (h, s) := s.track r now
  s.updateSlot h now (·.recordLatency ms)

def recordState (s : StatStore) (r : Resource) (state : BreakerState) (now : Nat) : StatStore :=
  let (h, s) := s.track r now
  s.updateSlot h now (·.recordState state)

/-- Whether a series is kept: it has something in flight, or was used not long ago. -/
def isKept (now idleMs : Nat) (series : Series) : Bool :=
  0 < series.inFlight || now - series.touched < idleMs

/-- Drops the resources that have nothing in flight and have not been used for so long. -/
def evictIdle (s : StatStore) (now idleMs : Nat) : StatStore :=
  { s with series := s.series.retain fun _ series => isKept now idleMs series }

/-! ## Reading -/

def inFlight (s : StatStore) (r : Resource) : Nat := ((s.get? r).map Series.inFlight).getD 0

/-- The traffic of a series, if there is one, in `[start, stop)`. -/
def windowOf (s : StatStore) (series : Option Series) (start stop : Nat) : Window :=
  match series with
  | some series => series.aggregate start stop s.grid.slotMs
  | none => Window.empty start stop

/-- The traffic of a resource in the slots that begin in `[start, stop)`. -/
def window (s : StatStore) (r : Resource) (start stop : Nat) : Window :=
  s.windowOf (s.get? r) start stop

end StatStore
end Floodgate
