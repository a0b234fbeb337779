import Floodgate.Proofs.Limiter
import Floodgate.Proofs.Stats.Log
import Mathlib.Algebra.Order.BigOperators.Group.List
import Mathlib.Algebra.Order.Floor.Div

/-!
# The budget of a slot

A rule that bounds the rate gives every slot a budget, and the limiter spends it on whoever comes
first: of the requests that find a unit of concurrency, the first so many are let through, and all
later ones are turned away. `allowed_eq_take` says so of whole runs, in which rules change, units
are given back, and idle resources are evicted.

The budget is spent against a counter in the slot, and the counter is only as old as the slot. A
slot may be dropped when a newer one comes into being, and an eviction drops all slots of a resource
at once. Neither touches the slots that requests still come into: times do not go back, the newest
slot is never dropped by a write, and a series that has been idle for a slot's length has no slot
that is not over. `Series.Starts` is the invariant that says this, with a bound `low` below which
nothing is said.

A request that is turned away for the rate has taken a unit first, and has asked the slot for room.
The unit goes back, and the slot it asked had counted others before, so no slot comes into being
and none is dropped.
-/

set_option autoImplicit false

namespace Floodgate

/-! ## Runs -/

/-- What ran out, if a request was turned away. -/
def LimitDecision.axis? : LimitDecision → Option LimitAxis
  | .allowed _ => none
  | .denied _ axis _ => some axis

inductive LimiterEvent where
  | permit (candidates : List Resource) (now : Nat)
  | release (lease : Lease)
  | rule (change : RuleChange)
  | evict (now idleMs : Nat)

namespace LimiterEvent

def time? : LimiterEvent → Option Nat
  | permit _ now | evict now _ => some now
  | release _ | rule _ => none

/-- How long what an eviction drops has been idle. -/
def idleMs? : LimiterEvent → Option Nat
  | evict _ idleMs => some idleMs
  | _ => none

end LimiterEvent

/-- A request, what it was held against, and what became of it. -/
structure Asked where
  time : Nat
  /-- What the request is counted under. -/
  resource : Resource
  rule : Option LimitRule
  /-- Whether a unit of concurrency was left for it. -/
  clear : Bool
  decision : LimitDecision

/-- The rules, the statistics, and the requests so far. -/
structure LimiterRun where
  book : RuleBook
  stats : StatStore
  /-- The requests, first to last. -/
  asked : List Asked := []

namespace LimiterRun

def start (book : RuleBook) (slotMs retained : Nat) : LimiterRun :=
  { book, stats := StatStore.new slotMs retained }

/-- A request of the present. -/
def ask (run : LimiterRun) (candidates : List Resource) (now : Nat) : Asked :=
  let rule := Limiter.resolve run.book candidates
  let resource := rule.elim .global (·.resource.bind candidates)
  { time := now
    resource
    rule
    clear := rule.all fun rule => !rule.concurrency.any (· ≤ run.stats.inFlight resource)
    decision := (Limiter.permit run.book run.stats candidates now).1 }

def step (run : LimiterRun) : LimiterEvent → LimiterRun
  | .permit candidates now =>
    { run with
      stats := (Limiter.permit run.book run.stats candidates now).2
      asked := run.asked ++ [run.ask candidates now] }
  | .release lease => { run with stats := Limiter.release run.stats lease }
  | .rule change => { run with book := (run.book.change? change).getD run.book }
  | .evict now idleMs => { run with stats := run.stats.evictIdle now idleMs }

def after (run : LimiterRun) (events : List LimiterEvent) : LimiterRun := events.foldl step run

end LimiterRun

section Counting

variable (g : Grid) (r : Resource) (place : Nat)

/-- The requests of a resource in a slot, first to last. Those that were turned away are among them.
-/
def inSlot (asked : List Asked) : List Asked :=
  asked.filter fun a => a.resource = r ∧ g.floor a.time = place

/-- How many of them have been let through. -/
def startedIn (asked : List Asked) : Nat :=
  (inSlot g r place asked).countP fun a => a.decision.axis? = none

theorem inSlot_append (asked : List Asked) (a : Asked) :
    inSlot g r place (asked ++ [a]) =
      inSlot g r place asked ++ if a.resource = r ∧ g.floor a.time = place then [a] else [] := by
  simp only [inSlot, List.filter_append, List.filter_cons, List.filter_nil, decide_eq_true_eq]

theorem startedIn_append (asked : List Asked) (a : Asked) :
    startedIn g r place (asked ++ [a]) =
      startedIn g r place asked +
        if r = a.resource ∧ place = g.floor a.time ∧ a.decision.axis? = none then 1 else 0 := by
  rw [startedIn, inSlot_append, List.countP_append, ← startedIn]
  by_cases hat : a.resource = r ∧ g.floor a.time = place
  · obtain ⟨rfl, rfl⟩ := hat
    simp [List.countP_cons]
  · have hno : ¬ (r = a.resource ∧ place = g.floor a.time ∧ a.decision.axis? = none) :=
      fun ⟨hr, hplace, _⟩ => hat ⟨hr.symm, hplace.symm⟩
    rw [if_neg hat, if_neg hno]
    rfl

end Counting

/-! ## What the slots have counted -/

namespace Series

variable {g : Grid} {low low' now : Nat} {started : Nat → Nat} {x x' : Series}

/-- From a place on, the slots of a series have counted as many started requests as is said. No slot
is newer than the last use. The bound is needed because older slots may have been dropped, and would
count from nothing again. -/
structure Starts (g : Grid) (low : Nat) (started : Nat → Nat) (x : Series) : Prop where
  tidy : x.Tidy g.slotMs
  le_touched : ∀ {place slot}, x.slots.get? place = some slot → place ≤ x.touched
  counted : ∀ {place}, low ≤ place → x.countAt place .started = started place

/-- What does not change the slots does not change what they have counted. To have been used more
lately does no harm. -/
theorem Starts.congr (h : x.Starts g low started) (hslots : x'.slots = x.slots)
    (hnewest : x'.newest = x.newest) (htouched : x.touched ≤ x'.touched) :
    x'.Starts g low started where
  tidy := h.tidy.congr hslots hnewest
  le_touched hp := Nat.le_trans (h.le_touched (hslots ▸ hp)) htouched
  counted hp := by
    rw [← h.counted hp, countAt, countAt, hslots]

theorem Starts.mono (h : x.Starts g low started) (hle : low ≤ low') : x.Starts g low' started :=
  ⟨h.tidy, h.le_touched, fun hp => h.counted (Nat.le_trans hle hp)⟩

/-- A place from `low` on is not dropped by a write at a time. Writes drop what lies a retention
span behind the newest slot, and a write behind the newest may itself be dropped. -/
def Reaches (g : Grid) (low now : Nat) (x : Series) : Prop :=
  g.floor now < low + g.retentionMs ∨ g.floor now ≤ x.newest

/-- The slot of the present is not dropped at present. -/
theorem reaches_floor (g : Grid) (now : Nat) (x : Series) : x.Reaches g (g.floor now) now :=
  Or.inl (Nat.lt_add_of_pos_right g.retentionMs_pos)

/-- A write in a series that has just been used counts as many started requests as it is said to, in
the slot of the present. -/
theorem Starts.write (h : x.Starts g low started) (hreach : x.Reaches g low now)
    (hused : now ≤ x.touched) {f : Slot → Slot} (hf : ∀ slot, (f slot).start = slot.start) {n : Nat}
    (hn : (f (x.slotFor (g.floor now))).tally.count .started =
      (x.slotFor (g.floor now)).tally.count .started + n) :
    (x.updateSlot (g.floor now) g.retentionMs f).Starts g low
      fun place => started place + if place = g.floor now then n else 0 where
  tidy := h.tidy.updateSlot g.retentionMs_pos (g.dvd_floor now) hf
  le_touched {place slot} hp := by
    rw [touched_updateSlot]
    rw [h.tidy.get?_updateSlot g.retentionMs_pos hf] at hp
    split at hp
    · rename_i hat
      exact hat ▸ Nat.le_trans (g.floor_le now) hused
    · split at hp
      · cases hp
      · exact h.le_touched hp
  counted {place} hp := by
    -- the write drops nothing that is spoken of: it lies behind the newest slot, or `low` is near
    -- enough
    have hkept : ¬ (x.newest < g.floor now ∧ place + g.retentionMs ≤ g.floor now) := by
      rcases hreach with hnear | hnewest <;> omega
    rw [h.tidy.countAt_updateSlot g.retentionMs_pos hf hn, if_neg hkept]
    by_cases hat : place = g.floor now
    · rw [if_pos hat, if_pos hat, ← hat, h.counted hp]
    · rw [if_neg hat, if_neg hat, h.counted hp, Nat.add_zero]

/-- The slot that was written is there, and its series has just been used. -/
theorem Starts.present (h : x.Starts g low started) (now : Nat) (f : Slot → Slot) :
    let x' := (x.touch now).updateSlot (g.floor now) g.retentionMs f
    g.floor now ≤ x'.newest ∧ now ≤ x'.touched := by
  have htidy : (x.touch now).Tidy g.slotMs := h.tidy.congr rfl rfl
  dsimp only
  rw [htidy.newest_updateSlot, touched_updateSlot]
  exact ⟨Nat.le_max_right _ _, Nat.le_max_right _ _⟩

end Series

namespace StatStore

variable {s s' : StatStore} {g : Grid} {low low' now : Nat} {started started' : Resource → Nat → Nat}
  {r : Resource}

/-- The same for all resources of a store on a grid. A resource that has no series counts nothing.
-/
structure Starts (g : Grid) (low : Nat) (started : Resource → Nat → Nat) (s : StatStore) : Prop where
  grid : s.grid = g
  series : ∀ r t, (s.seriesAt r t).Starts g low (started r)

theorem starts_new (slotMs retained low : Nat) :
    (StatStore.new slotMs retained).Starts (Grid.ofGiven slotMs retained) low fun _ _ => 0 where
  grid := rfl
  series r t := {
    tidy := Series.tidy_of_empty rfl
    le_touched := fun hp => by cases hp
    counted := fun _ => rfl }

theorem Starts.mono (h : s.Starts g low started) (hle : low ≤ low') : s.Starts g low' started :=
  ⟨h.grid, fun r t => (h.series r t).mono hle⟩

theorem Starts.of_eq (h : s.Starts g low started)
    (he : ∀ r place, started r place = started' r place) : s.Starts g low started' := by
  have hfun : started = started' := funext fun r => funext (he r)
  exact hfun ▸ h

/-- An operation that writes no slot. The hypotheses are what the views of the store give for each
such operation. -/
theorem Starts.same (h : s.Starts g low started) (now : Nat) (hgrid : s'.grid = s.grid) {x : Series}
    (hview : ∀ r', s'.get? r' = if r' = r then some x else s.get? r')
    (hslots : x.slots = (s.seriesAt r now).slots)
    (hnewest : x.newest = (s.seriesAt r now).newest)
    (htouched : (s.seriesAt r now).touched ≤ x.touched) : s'.Starts g low started where
  grid := hgrid.trans h.grid
  series r' t := by
    rw [seriesAt_of_get? hview]
    split
    · rename_i e
      subst e
      exact (h.series r' now).congr hslots hnewest htouched
    · exact h.series r' t

/-- An operation that writes a slot. -/
theorem Starts.write (h : s.Starts g low started) (hgrid : s'.grid = s.grid) {x : Series}
    {f : Slot → Slot}
    (hview : ∀ r', s'.get? r' =
      if r' = r then some (x.updateSlot (s.grid.floor now) s.grid.retentionMs f) else s.get? r')
    (hslots : x.slots = (s.seriesAt r now).slots)
    (hnewest : x.newest = (s.seriesAt r now).newest)
    (htouched : (s.seriesAt r now).touched ≤ x.touched) (hused : now ≤ x.touched)
    (hreach : (s.seriesAt r now).Reaches g low now)
    (hf : ∀ slot, (f slot).start = slot.start) {n : Nat}
    (hn : (f (x.slotFor (s.grid.floor now))).tally.count .started =
      (x.slotFor (s.grid.floor now)).tally.count .started + n) :
    s'.Starts g low fun r' place =>
      started r' place + if r' = r ∧ place = g.floor now then n else 0 where
  grid := hgrid.trans h.grid
  series r' t := by
    rw [h.grid] at hview hn
    rw [seriesAt_of_get? hview]
    by_cases e : r' = r
    · subst e
      have hx := ((h.series r' now).congr hslots hnewest htouched).write
        (by rwa [Series.Reaches, hnewest]) hused hf hn
      simpa using hx
    · simpa [e] using h.series r' t

theorem Starts.acquire (h : s.Starts g low started) (r : Resource) (limit : Option Nat) (now : Nat) :
    (s.acquire r limit now).2.Starts g low started := by
  refine h.same now (s.grid_acquire r now limit) (s.get?_acquire r now limit) ?_ ?_ ?_
  · split <;> rfl
  · split <;> rfl
  · split <;> exact Nat.le_max_left _ _

theorem Starts.acquireUnbounded (h : s.Starts g low started) (r : Resource) (now : Nat) :
    (s.acquireUnbounded r now).2.Starts g low started :=
  h.same now (s.grid_acquireUnbounded r now) (s.get?_acquireUnbounded r now) rfl rfl
    (Nat.le_max_left _ _)

theorem Starts.release (h : s.Starts g low started) (hd : Handle Resource) :
    (s.release hd).Starts g low started where
  grid := h.grid
  series r t := by
    obtain ⟨n, hn⟩ := s.seriesAt_release r hd t
    rw [hn]
    exact (h.series r t).congr rfl rfl (Nat.le_refl _)

/-- An increment counts where it is made, and only one of started requests is of interest. -/
theorem Starts.incr (h : s.Starts g low started) (r : Resource) (o : Outcome) (now : Nat)
    (hreach : (s.seriesAt r now).Reaches g low now) :
    (s.incr r o now).Starts g low fun r' place =>
      started r' place +
        if r' = r ∧ place = g.floor now then if Outcome.started = o then 1 else 0 else 0 :=
  h.write (s.grid_incr r now o) (s.get?_incr r now o) rfl rfl (Nat.le_max_left _ _)
    (Nat.le_max_right _ _) hreach (·.start_incr o) (Slot.count_incr _ o .started)

/-- After an increment the slot of the present is there, and the series has just been used. Whatever
follows at the same time drops no slot that matters. -/
theorem Starts.present_incr (h : s.Starts g low started) (r : Resource) (o : Outcome) (now : Nat) :
    g.floor now ≤ ((s.incr r o now).seriesAt r now).newest ∧
      now ≤ ((s.incr r o now).seriesAt r now).touched := by
  rw [seriesAt_of_get? (s.get?_incr r now o), if_pos rfl, h.grid]
  exact (h.series r now).present now _

theorem Starts.present_tryStart (h : s.Starts g low started) (r : Resource) (budget now : Nat) :
    g.floor now ≤ ((s.tryStart r budget now).2.seriesAt r now).newest ∧
      now ≤ ((s.tryStart r budget now).2.seriesAt r now).touched := by
  rw [seriesAt_of_get? (s.get?_tryStart r now budget), if_pos rfl, h.grid]
  exact (h.series r now).present now _

/-- There is room as long as fewer have started in the slot of the present than the budget says. -/
theorem Starts.tryStart_fst (h : s.Starts g low started) (r : Resource) (budget now : Nat)
    (hlow : low ≤ g.floor now) :
    (s.tryStart r budget now).1 = decide (started r (g.floor now) < budget) := by
  rw [s.tryStart_fst r now budget, h.grid, (h.series r now).counted hlow]

theorem Starts.tryStart (h : s.Starts g low started) (r : Resource) (budget now : Nat)
    (hreach : (s.seriesAt r now).Reaches g low now) :
    (s.tryStart r budget now).2.Starts g low fun r' place =>
      started r' place +
        if r' = r ∧ place = g.floor now then if (s.tryStart r budget now).1 then 1 else 0 else 0 := by
  refine h.write (s.grid_tryStart r now budget) (s.get?_tryStart r now budget) rfl rfl
    (Nat.le_max_left _ _) (Nat.le_max_right _ _) hreach (·.start_tryStart budget) ?_
  rw [s.count_tryStart r now budget .started]
  cases (s.tryStart r budget now).1 <;> rfl

/-- The handle may be that of a series that has just been used, or of none that is present. -/
theorem Starts.observe (h : s.Starts g low started) (hd : Handle Resource) (now : Nat)
    (hreach : (s.seriesAt hd.key now).Reaches g low now)
    (hused : now ≤ (s.seriesAt hd.key now).touched) : (s.observe hd now).Starts g low started := by
  by_cases hpresent : s.series.handle? hd.key = some hd
  · have hview := get?_observe_of_handle? now hpresent
    refine (h.write (s.grid_observe hd now) hview rfl rfl (Nat.le_refl _) hused hreach
      (·.start_observe _) (n := 0) (by simp)).of_eq fun r place => ?_
    split <;> rfl
  · have hsame : ∀ r t, (s.observe hd now).seriesAt r t = s.seriesAt r t := fun r t => by
      have hother : s.series.handle? r ≠ some hd := fun hr =>
        hpresent (Roster.key_of_handle? hr ▸ hr)
      rw [seriesAt, get?_observe, if_neg hother, seriesAt]
    exact ⟨h.grid, fun r t => hsame r t ▸ h.series r t⟩

/-- **What an eviction drops is over**, if it spares what was used within a slot's length. A series
that it drops has counted nothing in the present slot, and it will count from nothing there. -/
theorem Starts.evictIdle {idleMs : Nat} (h : s.Starts g (g.floor now) started)
    (hidle : g.slotMs ≤ idleMs) : (s.evictIdle now idleMs).Starts g (g.floor now) started := by
  refine ⟨h.grid, fun r t => ?_⟩
  have hbefore := h.series r t
  rcases s.seriesAt_evictIdle_cases r now idleMs t with hsame | ⟨hgone, hidled⟩
  · rw [hsame]
    exact hbefore
  · rw [hgone]
    refine ⟨Series.tidy_of_empty rfl, fun hp => (by cases hp), fun {place} hp => ?_⟩
    -- the last use was before the slot of the present, and so are all slots
    have hover : (s.seriesAt r t).slots.get? place = none := by
      cases hs : (s.seriesAt r t).slots.get? place with
      | none => rfl
      | some slot =>
        have hle : place ≤ (s.seriesAt r t).touched := hbefore.le_touched hs
        have hnow := g.lt_floor_add now
        have := g.slotMs_pos
        omega
    have hcount : (s.seriesAt r t).countAt place .started = started r place := hbefore.counted hp
    rw [Series.countAt, hover] at hcount
    exact hcount

/-- What the slots have counted, all of them. In this form the invariant compares two stores, and
nothing is assumed of their past. -/
theorem Starts.counts (h : s.Starts g low started) :
    s.Starts g 0 fun r place => (s.seriesAt r 0).countAt place .started where
  grid := h.grid
  series r t := {
    tidy := (h.series r t).tidy
    le_touched := (h.series r t).le_touched
    counted := fun {place} _ => by
      cases hr : s.get? r with
      | some x => simp only [seriesAt, hr, Option.getD_some]
      | none =>
        simp only [seriesAt, hr, Option.getD_none]
        rfl }

theorem Starts.count_window (h : s.Starts g 0 started) (r : Resource) (start : Nat) {stop : Nat}
    (hstop : stop < Word.size) :
    (s.window r start stop).tally.count .started =
      ∑ place ∈ Finset.Ico start stop, started r place := by
  rw [StatStore.count_window (h.grid.symm ▸ (h.series r 0).tidy) hstop]
  exact Finset.sum_congr rfl fun place _ => (h.series r 0).counted (Nat.zero_le place)

end StatStore

/-! ## One decision -/

namespace Limiter

variable {stats stats' : StatStore} {g : Grid} {low now : Nat} {started : Resource → Nat → Nat}
  {rule : LimitRule} {resource : Resource} {candidates : List Resource} {decision : LimitDecision}

theorem starts_of_acquire {limit : Option Nat} {h? : Option (Handle Resource)}
    (h : stats.Starts g low started) (acquired : stats.acquire resource limit now = (h?, stats')) :
    stats'.Starts g low started := by
  have hacquired := h.acquire resource limit now
  rwa [acquired] at hacquired

theorem start_of_qps {qps : Nat} (hqps : rule.qps = some qps) (stats : StatStore)
    (resource : Resource) (now : Nat) :
    start rule stats resource now =
      stats.tryStart resource (slotBudget stats.grid qps) now := by
  simp [start, hqps]

theorem start_of_none (hqps : rule.qps = none) (stats : StatStore) (resource : Resource) (now : Nat) :
    start rule stats resource now = (true, stats.incr resource .started now) := by
  simp [start, hqps]

/-- A request that finds room is counted in its slot. -/
theorem starts_of_start {room : Bool} (h : stats.Starts g low started)
    (hreach : (stats.seriesAt resource now).Reaches g low now)
    (asked : start rule stats resource now = (room, stats')) :
    stats'.Starts g low fun r place =>
      started r place + if r = resource ∧ place = g.floor now ∧ room = true then 1 else 0 := by
  cases hqps : rule.qps with
  | some qps =>
    have hstarted := h.tryStart resource (slotBudget stats.grid qps) now hreach
    rw [← start_of_qps hqps, asked] at hstarted
    exact hstarted.of_eq fun r place => by simp [← ite_and, and_assoc]
  | none =>
    cases (start_of_none hqps stats resource now).symm.trans asked
    exact (h.incr resource .started now hreach).of_eq fun r place => by simp

/-- To start, or to be refused a start, leaves the slot of the present in place. -/
theorem present_of_start {room : Bool} (h : stats.Starts g low started)
    (asked : start rule stats resource now = (room, stats')) :
    g.floor now ≤ (stats'.seriesAt resource now).newest ∧
      now ≤ (stats'.seriesAt resource now).touched := by
  cases hqps : rule.qps with
  | some qps =>
    have hpresent := h.present_tryStart resource (slotBudget stats.grid qps) now
    rwa [← start_of_qps hqps, asked] at hpresent
  | none =>
    cases (start_of_none hqps stats resource now).symm.trans asked
    exact h.present_incr resource .started now

theorem room_eq {room : Bool} {qps : Nat} (h : stats.Starts g low started) (hlow : low ≤ g.floor now)
    (hqps : rule.qps = some qps) (asked : start rule stats resource now = (room, stats')) :
    room = decide (started resource (g.floor now) < slotBudget g qps) := by
  have hroom := h.tryStart_fst resource (slotBudget stats.grid qps) now hlow
  rw [← start_of_qps hqps, asked, h.grid] at hroom
  exact hroom

/-- **What a decision adds to the counters**: one in the slot of its resource, if the request is let
through. -/
theorem Held.starts (hd : Held rule stats resource now decision stats')
    (h : stats.Starts g (g.floor now) started) :
    stats'.Starts g (g.floor now) fun r place =>
      started r place +
        if r = resource ∧ place = g.floor now ∧ decision.axis? = none then 1 else 0 := by
  -- all that happens to one request happens in the slot of the present
  have hreach : ∀ x : Series, x.Reaches g (g.floor now) now := Series.reaches_floor g now
  cases hd with
  | crowded acquired =>
    have hacquired := starts_of_acquire h acquired
    have hblocked := hacquired.incr resource .blockedByLimiter now (hreach _)
    exact hblocked.of_eq fun r place => by simp [LimitDecision.axis?]
  | @allowed hd leased asked acquired room =>
    have hacquired := starts_of_acquire h acquired
    have hasked := starts_of_start hacquired (hreach _) room
    have hkey : hd.key = resource := Roster.key_of_handle? (takesUnit_of_start acquired room).held
    have hused := (present_of_start hacquired room).2
    have hobserved := hasked.observe hd now (hreach _) (hkey ▸ hused)
    exact hobserved.of_eq fun r place => by simp [LimitDecision.axis?]
  | @spent hd leased asked acquired room =>
    have hacquired := starts_of_acquire h acquired
    have hasked := starts_of_start hacquired (hreach _) room
    have hblocked := (hasked.release hd).incr resource .blockedByLimiter now (hreach _)
    exact hblocked.of_eq fun r place => by simp [LimitDecision.axis?]

/-- How a request comes out that finds a rule with a ceiling of the rate. -/
theorem Held.axis?_eq {qps : Nat} (hd : Held rule stats resource now decision stats')
    (h : stats.Starts g low started) (hlow : low ≤ g.floor now) (hqps : rule.qps = some qps) :
    decision.axis? =
      if rule.concurrency.any (· ≤ stats.inFlight resource) then some .concurrency
      else if started resource (g.floor now) < slotBudget g qps then none
      else some .qps := by
  cases hd with
  | crowded acquired => simp [any_of_acquire acquired, LimitDecision.axis?]
  | allowed acquired room =>
    have hroom := room_eq (starts_of_acquire h acquired) hlow hqps room
    simp [any_of_acquire acquired, LimitDecision.axis?, of_decide_eq_true hroom.symm]
  | spent acquired room =>
    have hroom := room_eq (starts_of_acquire h acquired) hlow hqps room
    simp [any_of_acquire acquired, LimitDecision.axis?, of_decide_eq_false hroom.symm]

/-- The budget of a slot. It is never empty under a ceiling that is not zero. -/
theorem slotBudget_eq (g : Grid) (qps : Nat) :
    slotBudget g qps =
      if g.slotMs = 1000 then qps else min (qps * g.slotMs) Word.greatest ⌈/⌉ 1000 := by
  rw [slotBudget, Word.divCeil, Word.mulSaturating, Nat.ceilDiv_eq_add_pred_div]

/-- A ceiling that is not zero lets somebody through in every slot, however short, since budgets are
rounded up. -/
theorem slotBudget_pos (g : Grid) {qps : Nat} (hqps : 0 < qps) : 0 < slotBudget g qps := by
  have hproduct : 0 < qps * g.slotMs := Nat.mul_pos hqps g.slotMs_pos
  unfold slotBudget
  split
  · exact hqps
  · have hgreatest : 0 < Word.greatest := by decide
    simp only [Word.divCeil, Word.mulSaturating]
    omega

/-- **Who is turned away for the rate leaves no trace among the started**, unless the rule lets nobody
through. -/
theorem Held.counts_of_spent {resource' : Resource} {rule' : LimitRule}
    (hd : Held rule stats resource now (.denied resource' .qps rule') stats')
    (hqps : rule'.qps ≠ some 0) (h : stats.Starts g 0 started) : stats'.Starts g 0 started := by
  cases hd with
  | @spent hd leased asked acquired room =>
    have hacquired := starts_of_acquire h acquired
    -- the slot has counted others, so it is there, and its place is no newer than the newest
    have hthere : g.floor now ≤ (leased.seriesAt resource now).newest := by
      cases hq : rule.qps with
      | none => cases (start_of_none hq leased resource now).symm.trans room
      | some qps =>
        have hroom := room_eq hacquired (Nat.zero_le _) hq room
        have hspent : ¬ started resource (g.floor now) < slotBudget g qps :=
          of_decide_eq_false hroom.symm
        have hpos : 0 < slotBudget g qps :=
          slotBudget_pos g (Nat.pos_of_ne_zero fun e => hqps (e ▸ hq))
        have hcounted := (hacquired.series resource now).counted (Nat.zero_le (g.floor now))
        cases hslot : (leased.seriesAt resource now).slots.get? (g.floor now) with
        | some slot => exact (hacquired.series resource now).tidy.le_newest hslot
        | none =>
          simp only [Series.countAt, hslot, Option.map_none, Option.getD_none] at hcounted
          omega
    have hasked := starts_of_start hacquired (Or.inr hthere) room
    obtain ⟨n, hreleased⟩ := asked.seriesAt_release resource hd now
    have hstill : g.floor now ≤ ((asked.release hd).seriesAt resource now).newest := by
      rw [hreleased]
      exact (present_of_start hacquired room).1
    have hblocked := (hasked.release hd).incr resource .blockedByLimiter now (Or.inr hstill)
    exact hblocked.of_eq fun r place => by simp

/-- Seen from outside, a request that is turned away for the rate has changed no count of started
requests. -/
theorem counts_of_denied {book : RuleBook}
    (hp : permit book stats candidates now = (.denied resource .qps rule, stats'))
    (hqps : rule.qps ≠ some 0) (h : stats.Starts g 0 started) : stats'.Starts g 0 started := by
  unfold permit at hp
  split at hp
  · cases hp
  · rename_i rule' _
    have hd := held_permitUnder rule' stats candidates now
    rw [hp] at hd
    exact hd.counts_of_spent hqps h

theorem starts_permitUnlimited (h : stats.Starts g (g.floor now) started) :
    (permitUnlimited stats now).2.Starts g (g.floor now) fun r place =>
      started r place + if r = .global ∧ place = g.floor now then 1 else 0 := by
  have hreach : ∀ x : Series, x.Reaches g (g.floor now) now := Series.reaches_floor g now
  have hacquired := h.acquireUnbounded .global now
  have hstarted := hacquired.incr .global .started now (hreach _)
  have hkey : (stats.acquireUnbounded .global now).1.key = .global :=
    Roster.key_of_handle? (stats.handle?_track .global now)
  have hused := (hacquired.present_incr .global .started now).2
  have hobserved := hstarted.observe (stats.acquireUnbounded .global now).1 now (hreach _)
    (hkey.symm ▸ hused)
  exact hobserved.of_eq fun r place => by simp

end Limiter

/-! ## Runs -/

namespace LimiterRun

variable {run : LimiterRun} {g : Grid} {now : Nat} {candidates : List Resource}

/-- A request that no rule applies to is let through and finds its unit. -/
theorem ask_of_none (now : Nat) (hrule : Limiter.resolve run.book candidates = none) :
    (run.ask candidates now).resource = .global ∧ (run.ask candidates now).rule = none ∧
      (run.ask candidates now).clear = true ∧ (run.ask candidates now).decision.axis? = none ∧
      (run.step (.permit candidates now)).stats = (Limiter.permitUnlimited run.stats now).2 := by
  simp [ask, step, Limiter.permit, hrule, Limiter.permitUnlimited, LimitDecision.axis?]

theorem ask_of_some (now : Nat) {rule : LimitRule}
    (hrule : Limiter.resolve run.book candidates = some rule) :
    let asked := run.ask candidates now
    asked.resource = rule.resource.bind candidates ∧ asked.rule = some rule ∧
      asked.clear = !rule.concurrency.any (· ≤ run.stats.inFlight (rule.resource.bind candidates)) ∧
      Limiter.Held rule run.stats (rule.resource.bind candidates) now asked.decision
        (run.step (.permit candidates now)).stats := by
  have hheld := Limiter.held_permitUnder rule run.stats candidates now
  simp only [ask, step, Limiter.permit, hrule, Option.elim_some, Option.all_some, true_and]
  exact hheld

/-- **The slots count who is let through**, from the slot of the present on. -/
theorem starts_step (h : run.stats.Starts g (g.floor now) fun r place =>
      startedIn g r place run.asked) (event : LimiterEvent)
    (htime : ∀ t, event.time? = some t → t = now)
    (hidle : ∀ ms, event.idleMs? = some ms → g.slotMs ≤ ms) :
    (run.step event).stats.Starts g (g.floor now) fun r place =>
      startedIn g r place (run.step event).asked := by
  cases event with
  | permit candidates t =>
    cases htime t rfl
    -- one request more has been asked, and the slots count it if it was let through
    have hcount : ∀ r place, startedIn g r place (run.step (.permit candidates now)).asked =
        startedIn g r place run.asked +
          if r = (run.ask candidates now).resource ∧ place = g.floor now ∧
            (run.ask candidates now).decision.axis? = none then 1 else 0 := fun r place =>
      startedIn_append g r place run.asked (run.ask candidates now)
    cases hrule : Limiter.resolve run.book candidates with
    | none =>
      obtain ⟨hresource, -, -, hallowed, hstats⟩ := ask_of_none now hrule
      rw [hstats]
      refine (Limiter.starts_permitUnlimited h).of_eq fun r place => ?_
      rw [hcount, hresource, hallowed]
      simp
    | some rule =>
      obtain ⟨hresource, -, -, hheld⟩ := ask_of_some now hrule
      refine (hheld.starts h).of_eq fun r place => ?_
      rw [hcount, hresource]
  | release lease => exact h.release lease.series
  | rule change => exact h
  | evict t idleMs =>
    cases htime t rfl
    exact h.evictIdle (hidle idleMs rfl)

/-- **At every moment of a run the present slots count who was let through in them.** From one event
to the next time may pass, and then less is said, of later slots only. -/
theorem starts_after (book : RuleBook) (slotMs retained : Nat) (events : List LimiterEvent) :
    let run := (start book slotMs retained).after events
    let g := Grid.ofGiven slotMs retained
    (events.filterMap LimiterEvent.time?).Pairwise (· ≤ ·) →
      (∀ ms ∈ events.filterMap LimiterEvent.idleMs?, g.slotMs ≤ ms) →
      ∀ last, (∀ t ∈ events.filterMap LimiterEvent.time?, t ≤ last) →
        run.stats.Starts g (g.floor last) fun r place => startedIn g r place run.asked := by
  intro run g hsorted hidle last hlast
  induction events using List.reverseRecOn generalizing last with
  | nil => exact StatStore.starts_new slotMs retained _
  | append_singleton events event ih =>
    rw [List.filterMap_append] at hsorted hidle hlast
    obtain ⟨hbefore, -, hbetween⟩ := List.pairwise_append.mp hsorted
    have hin : ∀ {α : Type} {f : LimiterEvent → Option α} {a : α}, f event = some a →
        a ∈ [event].filterMap f := fun h => List.mem_filterMap.mpr ⟨event, by simp, h⟩
    have hidle' : ∀ ms, event.idleMs? = some ms → g.slotMs ≤ ms := fun ms hms =>
      hidle ms (List.mem_append_right _ (hin hms))
    have hrun := ih hbefore fun ms hms => hidle ms (List.mem_append_left _ hms)
    simp only [run, after, List.foldl_append, List.foldl_cons, List.foldl_nil]
    cases htime : event.time? with
    | none =>
      refine starts_step (hrun last fun t ht => hlast t (List.mem_append_left _ ht)) event ?_ hidle'
      simp [htime]
    | some now =>
      -- the counters agree from the slot of the event on, and so from any later one
      have hnow := hrun now fun t ht => hbetween t ht now (hin htime)
      have hle : now ≤ last := hlast now (List.mem_append_right _ (hin htime))
      refine (starts_step hnow event ?_ hidle').mono (g.floor_mono hle)
      simp [htime]

end LimiterRun

/-! ## First come, first served -/

/-- Of the requests in a slot, those are let through that are the first so many to find a unit of
concurrency. The later ones are turned away for the rate. -/
structure Orderly (g : Grid) (r : Resource) (place budget : Nat) (asked : List Asked) : Prop where
  clear : ∀ a ∈ inSlot g r place asked, a.decision.axis? = none → a.clear = true
  through : ∀ a ∈ ((inSlot g r place asked).filter (·.clear)).take budget, a.decision.axis? = none
  turnedAway : ∀ a ∈ ((inSlot g r place asked).filter (·.clear)).drop budget,
    a.decision.axis? = some .qps

namespace Orderly

variable {g : Grid} {r : Resource} {place budget : Nat} {asked : List Asked} {a : Asked}

theorem nil : Orderly g r place budget [] := by
  constructor <;> simp [inSlot]

/-- The first requests to find a unit, up to the budget, are those that were let through. -/
theorem allowed_eq (h : Orderly g r place budget asked) :
    (inSlot g r place asked).filter (fun a => a.decision.axis? = none) =
      ((inSlot g r place asked).filter (·.clear)).take budget := by
  have hclear : (inSlot g r place asked).filter (fun a => a.decision.axis? = none) =
      ((inSlot g r place asked).filter (·.clear)).filter fun a => a.decision.axis? = none := by
    rw [List.filter_filter]
    refine List.filter_congr fun a ha => ?_
    cases hd : a.decision.axis? with
    | none => simp [h.clear a ha hd]
    | some axis => simp
  have hturned : (((inSlot g r place asked).filter (·.clear)).drop budget).filter
      (fun a => a.decision.axis? = none) = [] :=
    List.filter_eq_nil_iff.mpr fun a ha => by simp [h.turnedAway a ha]
  rw [hclear, ← List.take_append_drop budget ((inSlot g r place asked).filter (·.clear)),
    List.filter_append, hturned, List.append_nil, List.take_append_drop]
  exact List.filter_eq_self.mpr fun a ha => by simp [h.through a ha]

/-- So many have started as found a unit, and no more than the budget. -/
theorem startedIn_eq (h : Orderly g r place budget asked) :
    startedIn g r place asked =
      min budget ((inSlot g r place asked).filter (·.clear)).length := by
  rw [startedIn, List.countP_eq_length_filter, h.allowed_eq, List.length_take]

/-- A request of another resource or of another slot changes nothing here. -/
theorem append_elsewhere (h : Orderly g r place budget asked)
    (ha : ¬ (a.resource = r ∧ g.floor a.time = place)) :
    Orderly g r place budget (asked ++ [a]) := by
  have hsame : inSlot g r place (asked ++ [a]) = inSlot g r place asked := by
    rw [inSlot_append, if_neg ha, List.append_nil]
  exact ⟨hsame ▸ h.clear, hsame ▸ h.through, hsame ▸ h.turnedAway⟩

/-- A request that is decided by how many have started in its slot. As long as the budget is not
spent, all who found a unit have started; once it is spent, nobody starts any more. -/
theorem append (h : Orderly g r place budget asked) (hat : a.resource = r ∧ g.floor a.time = place)
    (ha : a.decision.axis? =
      if a.clear then if startedIn g r place asked < budget then none else some .qps
      else some .concurrency) : Orderly g r place budget (asked ++ [a]) := by
  have hin : inSlot g r place (asked ++ [a]) = inSlot g r place asked ++ [a] := by
    rw [inSlot_append, if_pos hat]
  rw [h.startedIn_eq] at ha
  cases hclear : a.clear with
  | false =>
    rw [if_neg (by simp [hclear])] at ha
    -- a request without a unit is not among those that the budget is spent on
    have hsame : (inSlot g r place asked ++ [a]).filter (·.clear) =
        (inSlot g r place asked).filter (·.clear) := by
      simp [List.filter_append, hclear]
    refine ⟨fun b hb hd => ?_, ?_, ?_⟩
    · rw [hin] at hb
      rcases List.mem_append.mp hb with hb | hb
      · exact h.clear b hb hd
      · cases List.mem_singleton.mp hb
        rw [ha] at hd
        cases hd
    · rw [hin, hsame]
      exact h.through
    · rw [hin, hsame]
      exact h.turnedAway
  | true =>
    rw [if_pos hclear] at ha
    -- a request with a unit is the last of them, and is let through if that is within the budget
    have hmore : (inSlot g r place asked ++ [a]).filter (·.clear) =
        (inSlot g r place asked).filter (·.clear) ++ [a] := by
      simp [List.filter_append, hclear]
    refine ⟨fun b hb hd => ?_, fun b hb => ?_, fun b hb => ?_⟩
    · rw [hin] at hb
      rcases List.mem_append.mp hb with hb | hb
      · exact h.clear b hb hd
      · exact List.mem_singleton.mp hb ▸ hclear
    · rw [hin, hmore, List.take_append] at hb
      rcases List.mem_append.mp hb with hb | hb
      · exact h.through b hb
      · -- there is still room for one
        have hroom : 0 < budget - ((inSlot g r place asked).filter (·.clear)).length := by
          by_contra hnone
          rw [Nat.eq_zero_of_not_pos hnone] at hb
          cases hb
        rw [if_pos (by omega)] at ha
        exact List.mem_singleton.mp (List.mem_of_mem_take hb) ▸ ha
    · rw [hin, hmore, List.drop_append] at hb
      rcases List.mem_append.mp hb with hb | hb
      · exact h.turnedAway b hb
      · -- the budget was spent before this request came
        have hfull : budget - ((inSlot g r place asked).filter (·.clear)).length = 0 := by
          by_contra hroom
          obtain ⟨k, hk⟩ := Nat.exists_eq_succ_of_ne_zero hroom
          rw [hk] at hb
          simp at hb
        rw [if_neg (by omega)] at ha
        exact List.mem_singleton.mp (List.mem_of_mem_drop hb) ▸ ha

end Orderly

namespace LimiterRun

variable {g : Grid} {r : Resource} {place qps : Nat}

/-- What the slots have counted decides, and that is who was let through. -/
theorem orderly_permit {run : LimiterRun} {candidates : List Resource} {now : Nat}
    (h : Orderly g r place (Limiter.slotBudget g qps) run.asked)
    (hstarts : run.stats.Starts g (g.floor now) fun r place => startedIn g r place run.asked)
    (hqps : (run.ask candidates now).resource = r → g.floor now = place →
      (run.ask candidates now).rule.bind LimitRule.qps = some qps) :
    Orderly g r place (Limiter.slotBudget g qps) (run.step (.permit candidates now)).asked := by
  by_cases hat : (run.ask candidates now).resource = r ∧ g.floor now = place
  · obtain ⟨hresource, hplace⟩ := hat
    -- its rule has the ceiling, so there is a rule
    have hceiling := hqps hresource hplace
    cases hrule : Limiter.resolve run.book candidates with
    | none =>
      rw [(ask_of_none now hrule).2.1] at hceiling
      cases hceiling
    | some rule =>
      obtain ⟨hbound, hask, hclear, hheld⟩ := ask_of_some now hrule
      rw [hask, Option.bind_some] at hceiling
      refine h.append ⟨hresource, hplace⟩ ?_
      rw [hheld.axis?_eq hstarts (Nat.le_refl _) hceiling, hclear, ← hbound, hresource, hplace]
      cases rule.concurrency.any (· ≤ run.stats.inFlight r) <;> rfl
  · exact h.append_elsewhere hat

theorem orderly_after (book : RuleBook) (slotMs retained : Nat) (events : List LimiterEvent)
    (r : Resource) (place qps : Nat) :
    let run := (start book slotMs retained).after events
    let g := Grid.ofGiven slotMs retained
    (events.filterMap LimiterEvent.time?).Pairwise (· ≤ ·) →
      (∀ ms ∈ events.filterMap LimiterEvent.idleMs?, g.slotMs ≤ ms) →
      (∀ a ∈ inSlot g r place run.asked, a.rule.bind LimitRule.qps = some qps) →
      Orderly g r place (Limiter.slotBudget g qps) run.asked := by
  intro run g hsorted hidle hqps
  -- from the end, since what an event finds depends on all that was asked before it
  induction events using List.reverseRecOn with
  | nil => exact Orderly.nil
  | append_singleton events event ih =>
    have hstep : run = ((start book slotMs retained).after events).step event := by
      simp only [run, after, List.foldl_append, List.foldl_cons, List.foldl_nil]
    rw [List.filterMap_append] at hsorted hidle
    obtain ⟨hbefore, -, hbetween⟩ := List.pairwise_append.mp hsorted
    have hspared : ∀ ms ∈ events.filterMap LimiterEvent.idleMs?, g.slotMs ≤ ms := fun ms hms =>
      hidle ms (List.mem_append_left _ hms)
    rw [hstep] at hqps ⊢
    cases event with
    | permit candidates now =>
      have hasked : ∀ a ∈ inSlot g r place (((start book slotMs retained).after events).asked ++
          [((start book slotMs retained).after events).ask candidates now]),
          a.rule.bind LimitRule.qps = some qps := hqps
      rw [inSlot_append] at hasked
      refine orderly_permit (ih hbefore hspared fun a ha => hasked a (List.mem_append_left _ ha))
        (starts_after book slotMs retained events hbefore hspared now fun t ht =>
          hbetween t ht now (by simp [LimiterEvent.time?])) fun hresource hplace => ?_
      rw [if_pos ⟨hresource, hplace⟩] at hasked
      exact hasked _ (List.mem_append_right _ (List.mem_singleton_self _))
    | release | rule | evict => exact ih hbefore hspared hqps

/-- **The budget of a slot is spent in the order of arrival.** If every request of a resource in a
slot meets a rule with the same ceiling of the rate, the ones let through are the first so many of
those that found a unit of concurrency, and each later one of those is turned away for the rate.
Being turned away for the rate leaves the units and the started requests as they are. -/
theorem allowed_eq_take (book : RuleBook) (slotMs retained : Nat) (events : List LimiterEvent)
    (r : Resource) (place qps : Nat) :
    let run := (start book slotMs retained).after events
    let g := Grid.ofGiven slotMs retained
    let requests := inSlot g r place run.asked
    let clear := requests.filter (·.clear)
    let budget := if g.slotMs = 1000 then qps else min (qps * g.slotMs) Word.greatest ⌈/⌉ 1000
    (events.filterMap LimiterEvent.time?).Pairwise (· ≤ ·) →
      (∀ ms ∈ events.filterMap LimiterEvent.idleMs?, g.slotMs ≤ ms) →
      1 ≤ qps → (∀ a ∈ requests, a.rule.bind LimitRule.qps = some qps) →
      1 ≤ budget ∧
        requests.filter (fun a => a.decision.axis? = none) = clear.take budget ∧
        (∀ a ∈ clear.drop budget, a.decision.axis? = some .qps) ∧
        ∀ candidates now resource rule stats, rule.qps ≠ some 0 →
          Limiter.permit run.book run.stats candidates now = (.denied resource .qps rule, stats) →
          (∀ r', stats.inFlight r' = run.stats.inFlight r') ∧
            ∀ r' start stop, stop < Word.size →
              (stats.window r' start stop).tally.count .started =
                (run.stats.window r' start stop).tally.count .started := by
  intro run g requests clear budget hsorted hidle hqps hrules
  -- some time past all events, for the counts are compared at no time in particular
  have hlast : ∀ t ∈ events.filterMap LimiterEvent.time?,
      t ≤ (events.filterMap LimiterEvent.time?).sum := fun t ht => List.le_sum_of_mem ht
  have hbudget : budget = Limiter.slotBudget g qps := (Limiter.slotBudget_eq g qps).symm
  have horderly : Orderly g r place budget run.asked := by
    rw [hbudget]
    exact orderly_after book slotMs retained events r place qps hsorted hidle hrules
  refine ⟨hbudget ▸ Limiter.slotBudget_pos g hqps, horderly.allowed_eq, horderly.turnedAway, ?_⟩
  intro candidates now resource rule stats hrate hdenied
  have hunits := Limiter.sameUnits_of_denied hdenied
  have hstarts := starts_after book slotMs retained events hsorted hidle _ hlast
  have hcounts := Limiter.counts_of_denied hdenied hrate hstarts.counts
  refine ⟨hunits.inFlight, fun r' start stop hstop => ?_⟩
  rw [hcounts.count_window r' start hstop, hstarts.counts.count_window r' start hstop]

/-- Slots of half a second, three requests a second, two in flight: two may start in a slot. The third
request finds no unit, the fourth and fifth find one that has come back; by then the budget is
spent, and an eviction in between does not renew it. -/
theorem allowed_eq_take_crowded :
    let r := Resource.service "s"
    let rule : LimitRule := { resource := r, qps := some 3, concurrency := some 2 }
    let events := [LimiterEvent.rule (.rateLimit (.upsert rule)), .permit [r] 600, .permit [r] 650,
      .permit [r] 700, .release { resource := r, rule := some rule, series := ⟨r, 0⟩ },
      .permit [r] 800, .evict 900 500, .permit [r] 990]
    let run := (start .empty 500 10).after events
    let requests := inSlot (Grid.ofGiven 500 10) r 500 run.asked
    requests.map (·.decision.axis?) = [none, none, some .concurrency, some .qps, some .qps] ∧
      requests.filter (fun a => a.decision.axis? = none) = (requests.filter (·.clear)).take 2 := by
  refine ⟨by decide +kernel, ?_⟩
  exact (allowed_eq_take .empty 500 10 _ (.service "s") 500 3 (by decide) (by decide) (by decide)
    (by decide +kernel)).2.1

end LimiterRun
end Floodgate
