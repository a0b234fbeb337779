import Floodgate.Proofs.Stats.Aggregate
import Floodgate.Proofs.Stats.Views
import Mathlib.Algebra.BigOperators.Group.Finset.Piecewise
import Mathlib.Algebra.Order.BigOperators.Group.Finset

/-!
# Windows and the log of what was written

A run of calls of a store is accompanied by a log: which slots were written, and what was counted
in them. The log knows no slots, no expiry and no windows, so it says what a window should report:
the number of entries of the outcome whose slot lies in the range. `count_window_eq_countIn` is
that, for every range that begins within the retention span behind the newest slot written.

Calls may come in any order of time. A late write may bring a slot into being again that had been
dropped, without what it held before; such a slot lies outside of the ranges that the statement is
about, and stays outside, because the newest slot is never an older one later on. That is why the
invariant `Recorded` ties the counters to the log only above a bound, and why the bound only rises.

There are no evictions here. So a series that has been made stays in its place for good
(`Steady`), and a call that works through a handle works on the present series. What a call does to
the slots is then said once: it changes the slot that it writes (`Steady.call_of_write?`), or it
writes none and leaves them all alone (`slots_call_of_write?_eq_none`).
-/

set_option autoImplicit false

namespace Floodgate

/-! ## Calls and the log -/

/-- One call of a store, of any kind but an eviction. -/
inductive StatCall where
  | incr (r : Resource) (o : Outcome) (now : Nat)
  | tryStart (r : Resource) (budget now : Nat)
  | acquire (r : Resource) (limit : Option Nat) (now : Nat)
  | acquireUnbounded (r : Resource) (now : Nat)
  | release (h : Handle Resource)
  | observe (h : Handle Resource) (now : Nat)
  | recordLatency (r : Resource) (ms now : Nat)
  | recordState (r : Resource) (state : BreakerState) (now : Nat)

/-- A slot that was written: whose, at what time, and which outcome was counted in it, if any. -/
structure SlotWrite where
  resource : Resource
  time : Nat
  counted : Option Outcome := none
  deriving DecidableEq

/-- The slot that a call writes. A request that does not start is not counted, and a handle that
names no series writes nothing. -/
def StatCall.write? (s : StatStore) : StatCall → Option SlotWrite
  | .incr r o now => some { resource := r, time := now, counted := some o }
  | .tryStart r budget now =>
    some {
      resource := r
      time := now
      counted := if (s.tryStart r budget now).1 then some .started else none }
  | .acquire .. | .acquireUnbounded .. | .release .. => none
  | .observe h now => (s.held? h).map fun _ => { resource := h.key, time := now }
  | .recordLatency r _ now | .recordState r _ now => some { resource := r, time := now }

/-- The state of a breaker that a call notes in its slot, if it does. -/
def StatCall.note? : StatCall → Option BreakerState
  | .recordState _ state _ => some state
  | _ => none

/-- The latency that a call notes in its slot, if it does. -/
def StatCall.latency? : StatCall → Option Nat
  | .recordLatency _ ms _ => some ms
  | _ => none

/-- When a call is made. Giving a unit back takes no time. -/
def StatCall.time? : StatCall → Option Nat
  | .incr _ _ now | .tryStart _ _ now | .acquire _ _ now | .acquireUnbounded _ now
  | .observe _ now | .recordLatency _ _ now | .recordState _ _ now => some now
  | .release _ => none

/-- A slot is written at the time of the call. -/
theorem StatCall.time?_of_write? {s : StatStore} {c : StatCall} {w : SlotWrite}
    (h : c.write? s = some w) : c.time? = some w.time := by
  cases c with
  | acquire | acquireUnbounded | release => cases h
  | observe hd now =>
    obtain ⟨x, -, rfl⟩ := Option.map_eq_some_iff.mp h
    rfl
  | incr | tryStart | recordLatency | recordState =>
    cases h
    rfl

/-- The store after a call. -/
def StatStore.call (s : StatStore) : StatCall → StatStore
  | .incr r o now => s.incr r o now
  | .tryStart r budget now => (s.tryStart r budget now).2
  | .acquire r limit now => (s.acquire r limit now).2
  | .acquireUnbounded r now => (s.acquireUnbounded r now).2
  | .release h => s.release h
  | .observe h now => s.observe h now
  | .recordLatency r ms now => s.recordLatency r ms now
  | .recordState r state now => s.recordState r state now

/-- A store, and what has been written in it. -/
structure StatRun where
  store : StatStore
  /-- The slots that were written, first to last. -/
  log : List SlotWrite := []

namespace StatRun

def start (slotMs retained : Nat) : StatRun := { store := StatStore.new slotMs retained }

def step (run : StatRun) (c : StatCall) : StatRun where
  store := run.store.call c
  log := run.log ++ (c.write? run.store).toList

def after (run : StatRun) (calls : List StatCall) : StatRun := calls.foldl step run

theorem after_concat (run : StatRun) (calls : List StatCall) (c : StatCall) :
    run.after (calls ++ [c]) = (run.after calls).step c := List.foldl_append

end StatRun

section Counting

variable (g : Grid) (r : Resource) (o : Outcome)

/-- How many requests of an outcome the log has for the slots of a resource in `[start, stop)`. -/
def countIn (start stop : Nat) (log : List SlotWrite) : Nat :=
  log.countP fun w => w.resource = r ∧ w.counted = some o ∧ start ≤ g.floor w.time ∧
    g.floor w.time < stop

/-- How many it has for the slot at a place. -/
def countOf (place : Nat) (log : List SlotWrite) : Nat :=
  log.countP fun w => w.resource = r ∧ w.counted = some o ∧ g.floor w.time = place

/-- The start of the newest slot of a resource that was written; zero if none was. -/
def newestWritten (log : List SlotWrite) : Nat :=
  (log.filter (·.resource = r)).foldl (fun newest w => max newest (g.floor w.time)) 0

theorem countOf_append (place : Nat) (log : List SlotWrite) (w : SlotWrite) :
    countOf g r o place (log ++ [w]) =
      countOf g r o place log +
        if w.resource = r ∧ w.counted = some o ∧ g.floor w.time = place then 1 else 0 := by
  simp [countOf, List.countP_append, List.countP_cons]

theorem countIn_append (start stop : Nat) (log log' : List SlotWrite) :
    countIn g r o start stop (log ++ log') =
      countIn g r o start stop log + countIn g r o start stop log' := List.countP_append

variable {g r o} in
theorem countIn_of_uncounted {start stop : Nat} {log : List SlotWrite}
    (h : ∀ w ∈ log, w.counted ≠ some o) : countIn g r o start stop log = 0 :=
  List.countP_eq_zero.mpr fun w hw hcounted => h w hw (of_decide_eq_true hcounted).2.1

/-- The slots in a range make up the range. -/
theorem sum_countOf (start stop : Nat) (log : List SlotWrite) :
    ∑ place ∈ Finset.Ico start stop, countOf g r o place log = countIn g r o start stop log := by
  induction log using List.reverseRecOn with
  | nil => simp [countOf, countIn]
  | append_singleton log w ih =>
    simp only [countOf_append, Finset.sum_add_distrib, ih]
    simp only [countIn, List.countP_append, List.countP_cons, List.countP_nil, Nat.zero_add,
      decide_eq_true_eq]
    congr 1
    by_cases hw : w.resource = r ∧ w.counted = some o
    · simp [hw.1, hw.2]
    · rw [if_neg fun h => hw ⟨h.1, h.2.1⟩]
      exact Finset.sum_eq_zero fun place _ => if_neg fun h => hw ⟨h.1, h.2.1⟩

theorem newestWritten_append (log : List SlotWrite) (w : SlotWrite) :
    newestWritten g r (log ++ [w]) =
      if w.resource = r then max (newestWritten g r log) (g.floor w.time)
      else newestWritten g r log := by
  by_cases hw : w.resource = r <;> simp [newestWritten, List.filter_append, hw]

end Counting

/-! ## One series -/

theorem Grid.dvd_floor (g : Grid) (now : Nat) : g.slotMs ∣ g.floor now :=
  ⟨now / g.slotMs, g.floor_eq now⟩

theorem Grid.lt_floor_add (g : Grid) (now : Nat) : now < g.floor now + g.slotMs := by
  have := Nat.mod_lt now g.slotMs_pos
  simp only [floor]
  omega

theorem Grid.floor_mono (g : Grid) {t now : Nat} (h : t ≤ now) : g.floor t ≤ g.floor now := by
  rw [floor_eq, floor_eq]
  exact Nat.mul_le_mul_left _ (Nat.div_le_div_right h)

namespace Series

variable {g : Grid} {r : Resource} {log : List SlotWrite} {bound bound' : Nat} {x x' : Series}

/-- A series has no slot beyond a bound, and within the retention span behind the bound it has
counted what the log says. Nowhere has it counted more. -/
structure Records (g : Grid) (r : Resource) (log : List SlotWrite) (bound : Nat) (x : Series) :
    Prop where
  tidy : x.Tidy g.slotMs
  newest_le : x.newest ≤ bound
  counted : ∀ {place}, bound < place + g.retentionMs → ∀ o,
    x.countAt place o = countOf g r o place log
  atMost : ∀ place o, x.countAt place o ≤ countOf g r o place log

theorem Records.congr (h : x.Records g r log bound) (hslots : x'.slots = x.slots)
    (hnewest : x'.newest = x.newest) : x'.Records g r log bound where
  tidy := h.tidy.congr hslots hnewest
  newest_le := hnewest ▸ h.newest_le
  counted hp o := by
    rw [← h.counted hp o, countAt, countAt, hslots]
  atMost place o := by
    rw [countAt, hslots]
    exact h.atMost place o

theorem Records.mono (h : x.Records g r log bound) (hle : bound ≤ bound') :
    x.Records g r log bound' where
  tidy := h.tidy
  newest_le := Nat.le_trans h.newest_le hle
  counted hp := h.counted (Nat.lt_of_le_of_lt hle hp)
  atMost := h.atMost

/-- What is written elsewhere, or not counted, is nothing to a series. -/
theorem Records.append (h : x.Records g r log bound) {w : SlotWrite}
    (hw : w.resource ≠ r ∨ w.counted = none) : x.Records g r (log ++ [w]) bound where
  tidy := h.tidy
  newest_le := h.newest_le
  counted {place} hp o := by
    have hno : ¬ (w.resource = r ∧ w.counted = some o ∧ g.floor w.time = place) := by
      rintro ⟨hr, ho, -⟩
      rcases hw with hw | hw
      · exact hw hr
      · rw [hw] at ho
        cases ho
    rw [countOf_append, if_neg hno, h.counted hp o, Nat.add_zero]
  atMost place o := by
    rw [countOf_append]
    exact Nat.le_add_right_of_le (h.atMost place o)

theorem records_new (g : Grid) (r : Resource) (now bound : Nat) :
    (Series.new now).Records g r [] bound where
  tidy := tidy_of_empty rfl
  newest_le := Nat.zero_le bound
  counted _ _ := rfl
  atMost _ _ := Nat.le_refl 0

/-- A write that is logged. Whatever it drops lies outside of the retention span. -/
theorem Records.write (h : x.Records g r log bound) {f : Slot → Slot} {w : SlotWrite}
    (hr : w.resource = r) (htime : g.floor w.time ≤ bound)
    (hf : ∀ slot, (f slot).start = slot.start)
    (hcount : ∀ o, (f (x.slotFor (g.floor w.time))).tally.count o =
      (x.slotFor (g.floor w.time)).tally.count o + if w.counted = some o then 1 else 0) :
    (x.updateSlot (g.floor w.time) g.retentionMs f).Records g r (log ++ [w]) bound where
  tidy := h.tidy.updateSlot g.retentionMs_pos (g.dvd_floor w.time) hf
  newest_le := by
    rw [h.tidy.newest_updateSlot]
    exact Nat.max_le.mpr ⟨h.newest_le, htime⟩
  counted {place} hp o := by
    -- the places spoken of are within the span behind the bound, so none of them is dropped
    have hkept : ¬ (x.newest < g.floor w.time ∧ place + g.retentionMs ≤ g.floor w.time) := by
      omega
    rw [h.tidy.countAt_updateSlot g.retentionMs_pos hf (hcount o), if_neg hkept, countOf_append]
    by_cases hat : place = g.floor w.time
    · subst hat
      simp [hr, h.counted hp o]
    · have hat' : ¬ g.floor w.time = place := fun e => hat e.symm
      simp [hat, hat', h.counted hp o]
  atMost place o := by
    have hbefore := h.atMost place o
    rw [h.tidy.countAt_updateSlot g.retentionMs_pos hf (hcount o), countOf_append]
    by_cases hat : place = g.floor w.time
    · subst hat
      simpa [hr] using hbefore
    · rw [if_neg hat]
      split
      · exact Nat.zero_le _
      · exact Nat.le_add_right_of_le hbefore

end Series

/-! ## The store -/

namespace StatStore

variable {s s' : StatStore} {log : List SlotWrite} {bound bound' : Resource → Nat}

/-- Every series there ever was is in its place. -/
def Steady (s : StatStore) : Prop := ∀ h, (s.held? h).isSome → s.series.handle? h.key = some h

theorem Steady.modify (h : s.Steady) (hd : Handle Resource) (f : Series → Series) :
    (s.modify hd f).Steady := by
  intro h' hsome
  have hkept : (s.held? h').isSome := by
    simp only [held?, StatStore.modify, Roster.get?_modify] at hsome ⊢
    split at hsome
    · rename_i e
      rw [Option.isSome_map] at hsome
      exact e ▸ hsome
    · exact hsome
  exact (s.series.handle?_modify hd f h'.key).trans (h h' hkept)

theorem Steady.track (h : s.Steady) (r : Resource) (now : Nat) : (s.track r now).2.Steady := by
  cases hr : s.series.handle? r with
  | some hd =>
    rw [show s.track r now = (hd, s) by simp [StatStore.track, hr]]
    exact h
  | none =>
    -- the place is held by nobody, and so it never was
    have hfresh : (s.series.place r).holders = [] := by
      cases hh : (s.series.place r).holders with
      | nil => rfl
      | cons x rest =>
        have hfirst := h ⟨r, 0⟩ (by simp [held?, Roster.get?, hh])
        rw [hr] at hfirst
        cases hfirst
    intro h' hsome
    obtain ⟨k, n⟩ := h'
    simp only [StatStore.track, hr, held?, Roster.get?, Roster.place_install] at hsome ⊢
    rw [Roster.handle?_install]
    by_cases e : k = r
    · subst e
      have hn : n = 0 := by simpa [Succession.install, hfresh] using hsome
      simp [hfresh, hn]
    · rw [if_neg e] at hsome ⊢
      exact h ⟨k, n⟩ hsome

theorem Steady.used (h : s.Steady) (r : Resource) (now : Nat) : (s.used r now).Steady :=
  (h.track r now).modify _ _

theorem Steady.call (h : s.Steady) (c : StatCall) : (s.call c).Steady := by
  cases c with
  | incr r o now => exact (h.used r now).modify _ _
  | tryStart r budget now => exact (h.used r now).modify _ _
  | acquire r limit now =>
    rw [StatStore.call, acquire_eq]
    split
    · exact h.used r now
    · exact (h.used r now).modify _ _
  | acquireUnbounded r now => exact (h.track r now).modify _ _
  | release hd => exact h.modify hd _
  | observe hd now => exact h.modify hd _
  | recordLatency r ms now => exact (h.track r now).modify _ _
  | recordState r state now => exact (h.track r now).modify _ _

/-! ### What a call does to the slots -/

theorem seriesAt_of_get? {r : Resource} {x : Series}
    (hview : ∀ r', s'.get? r' = if r' = r then some x else s.get? r') (r' : Resource) (now : Nat) :
    s'.seriesAt r' now = if r' = r then x else s.seriesAt r' now := by
  by_cases e : r' = r <;> simp [seriesAt, hview, e]

/-- A change of a slot, and the series it is made in: that of the store, up to what is in flight and
when it was used. -/
structure SlotChange (s : StatStore) (w : SlotWrite) (note? : Option BreakerState) (x : Series)
    (f : Slot → Slot) : Prop where
  slots : x.slots = (s.seriesAt w.resource w.time).slots
  newest : x.newest = (s.seriesAt w.resource w.time).newest
  start : ∀ slot, (f slot).start = slot.start
  state : ∀ slot, (f slot).state = note?.or slot.state
  count : ∀ o, (f (x.slotFor (s.grid.floor w.time))).tally.count o =
    (x.slotFor (s.grid.floor w.time)).tally.count o + if w.counted = some o then 1 else 0

/-- **A call that writes a slot** changes that, and leaves all other resources alone. One that works
through a handle does so if that is the handle of a present series. -/
theorem call_of_write? {c : StatCall} {w : SlotWrite} (hw : c.write? s = some w)
    (hpresent : ∀ hd now, c = .observe hd now → s.series.handle? hd.key = some hd) :
    ∃ x f, s.SlotChange w c.note? x f ∧
      (c.latency? = none → ∀ slot, (f slot).latency = slot.latency) ∧ ∀ r, (s.call c).get? r =
        if r = w.resource then some (x.updateSlot (s.grid.floor w.time) s.grid.retentionMs f)
        else s.get? r := by
  cases c with
  | acquire | acquireUnbounded | release => cases hw
  | incr r o now =>
    cases hw
    refine ⟨(s.seriesAt r now).touch now, (·.incr o), ⟨rfl, rfl, (·.start_incr o), fun _ => rfl,
      fun o' => ?_⟩, fun _ _ => rfl, s.get?_incr r now o⟩
    rw [Slot.count_incr]
    simp [eq_comm]
  | tryStart r budget now =>
    cases hw
    exact ⟨(s.seriesAt r now).touch now, fun slot => (slot.tryStart budget).2, ⟨rfl, rfl,
      (·.start_tryStart budget), (·.state_tryStart budget), s.count_tryStart r now budget⟩,
      fun _ slot => slot.latency_tryStart budget, s.get?_tryStart r now budget⟩
  | observe hd now =>
    obtain ⟨x, hheld, rfl⟩ := Option.map_eq_some_iff.mp hw
    exact ⟨s.seriesAt hd.key now, (·.observe (s.seriesAt hd.key now).inFlight), ⟨rfl, rfl,
      (·.start_observe _), fun _ => rfl, fun o => by simp⟩, fun _ _ => rfl,
      get?_observe_of_handle? now (hpresent hd now rfl)⟩
  | recordLatency r ms now =>
    cases hw
    exact ⟨s.seriesAt r now, (·.recordLatency ms), ⟨rfl, rfl, (·.start_recordLatency ms),
      fun _ => rfl, fun o => by simp⟩, nofun, s.get?_recordLatency r now ms⟩
  | recordState r state now =>
    cases hw
    exact ⟨s.seriesAt r now, (·.recordState state), ⟨rfl, rfl, (·.start_recordState state),
      fun _ => rfl, fun o => by simp⟩, fun _ _ => rfl, s.get?_recordState r now state⟩

/-- Where nothing was ever evicted, every handle is that of a present series. -/
theorem Steady.call_of_write? (hs : s.Steady) {c : StatCall} {w : SlotWrite}
    (hw : c.write? s = some w) :
    ∃ x f, s.SlotChange w c.note? x f ∧ ∀ r, (s.call c).get? r =
      if r = w.resource then some (x.updateSlot (s.grid.floor w.time) s.grid.retentionMs f)
      else s.get? r := by
  have hpresent : ∀ hd now, c = .observe hd now → s.series.handle? hd.key = some hd := by
    rintro hd now rfl
    obtain ⟨x, hheld, -⟩ := Option.map_eq_some_iff.mp hw
    exact hs hd (by rw [hheld]; rfl)
  obtain ⟨x, f, hchange, -, hview⟩ := StatStore.call_of_write? hw hpresent
  exact ⟨x, f, hchange, hview⟩

/-- A handle that is not that of a present series changes nothing that can be seen. -/
theorem slots_observe_of_absent {hd : Handle Resource}
    (habsent : s.series.handle? hd.key ≠ some hd) (now : Nat) (r : Resource) (t : Nat) :
    ((s.observe hd now).seriesAt r t).slots = (s.seriesAt r t).slots ∧
      ((s.observe hd now).seriesAt r t).newest = (s.seriesAt r t).newest := by
  have hno : s.series.handle? r ≠ some hd := fun hr =>
    habsent ((Roster.key_of_handle? hr).symm ▸ hr)
  rw [seriesAt, get?_observe, if_neg hno]
  exact ⟨rfl, rfl⟩

/-- **A call that writes no slot** leaves all slots alone. It may still make a series, or touch one.
-/
theorem slots_call_of_write?_eq_none {c : StatCall} (hw : c.write? s = none) (r : Resource)
    (t : Nat) :
    ((s.call c).seriesAt r t).slots = (s.seriesAt r t).slots ∧
      ((s.call c).seriesAt r t).newest = (s.seriesAt r t).newest := by
  cases c with
  | incr | tryStart | recordLatency | recordState => cases hw
  | acquire r' limit now =>
    rw [StatStore.call, seriesAt_of_get? (s.get?_acquire r' now limit)]
    split
    · rename_i e
      subst e
      split <;> exact s.slots_seriesAt r now t
    · exact ⟨rfl, rfl⟩
  | acquireUnbounded r' now =>
    rw [StatStore.call, seriesAt_of_get? (s.get?_acquireUnbounded r' now)]
    split
    · rename_i e
      subst e
      exact s.slots_seriesAt r now t
    · exact ⟨rfl, rfl⟩
  | release hd =>
    obtain ⟨n, hn⟩ := s.seriesAt_release r hd t
    rw [StatStore.call, hn]
    exact ⟨rfl, rfl⟩
  | observe hd now =>
    have hheld : s.held? hd = none := Option.map_eq_none_iff.mp hw
    refine slots_observe_of_absent (fun hpresent => ?_) now r t
    obtain ⟨x, hx, -⟩ := Option.map_eq_some_iff.mp hpresent
    have hget := (Roster.get?_of_handle? hpresent).symm.trans hheld
    rw [hx] at hget
    cases hget

/-- The counters of a store agree with a log, for each resource behind a bound of its own. -/
structure Recorded (bound : Resource → Nat) (s : StatStore) (log : List SlotWrite) : Prop where
  steady : s.Steady
  series : ∀ r now, (s.seriesAt r now).Records s.grid r log (bound r)

theorem recorded_new (slotMs retained : Nat) (bound : Resource → Nat) :
    (StatStore.new slotMs retained).Recorded bound [] where
  steady _ hsome := by cases hsome
  series r now := Series.records_new _ r now (bound r)

theorem Recorded.mono (h : s.Recorded bound log) (hle : ∀ r, bound r ≤ bound' r) :
    s.Recorded bound' log := ⟨h.steady, fun r now => (h.series r now).mono (hle r)⟩

theorem grid_call (s : StatStore) (c : StatCall) : (s.call c).grid = s.grid := by
  cases c <;> simp [StatStore.call]

/-- **Every call keeps the counters in agreement with the log**, as long as what it writes does not
lie beyond the bounds. -/
theorem Recorded.call (h : s.Recorded bound log) (c : StatCall)
    (htime : ∀ w, c.write? s = some w → s.grid.floor w.time ≤ bound w.resource) :
    (s.call c).Recorded bound (log ++ (c.write? s).toList) where
  steady := h.steady.call c
  series r t := by
    rw [s.grid_call c]
    cases hw : c.write? s with
    | none =>
      obtain ⟨hslots, hnewest⟩ := slots_call_of_write?_eq_none hw r t
      rw [Option.toList_none, List.append_nil]
      exact (h.series r t).congr hslots hnewest
    | some w =>
      obtain ⟨x, f, hchange, hview⟩ := h.steady.call_of_write? hw
      rw [seriesAt_of_get? hview, Option.toList_some]
      split
      · rename_i e
        subst e
        exact ((h.series w.resource w.time).congr hchange.slots hchange.newest).write rfl
          (htime w hw) hchange.start hchange.count
      · rename_i e
        exact (h.series r t).append (Or.inl fun e' => e e'.symm)

/-- A window has the range it was asked for. -/
theorem range_window (s : StatStore) (r : Resource) (start stop : Nat) :
    (s.window r start stop).start = start ∧ (s.window r start stop).stop = stop := by
  unfold window windowOf
  split
  · exact Window.range_mergeAll _ (Window.empty start stop)
  · exact ⟨rfl, rfl⟩

/-- A window of a resource is a window of its series. -/
theorem count_window {r : Resource} {start stop : Nat}
    (h : (s.seriesAt r 0).Tidy s.grid.slotMs) (hstop : stop < Word.size) (o : Outcome) :
    (s.window r start stop).tally.count o =
      ∑ place ∈ Finset.Ico start stop, (s.seriesAt r 0).countAt place o := by
  cases hr : s.get? r with
  | some x =>
    have hx : s.seriesAt r 0 = x := by simp [seriesAt, hr]
    rw [window, hr, hx]
    exact (hx ▸ h).count_aggregate s.grid.slotMs_pos hstop o
  | none =>
    have hx : s.seriesAt r 0 = Series.new 0 := by simp [seriesAt, hr]
    rw [window, hr, hx]
    have hzero : ∑ place ∈ Finset.Ico start stop, (Series.new 0).countAt place o = 0 :=
      Finset.sum_eq_zero fun _ _ => rfl
    rw [hzero]
    cases o <;> rfl

/-- **A window reports what the log has**, if it begins within the retention span behind the
bound. -/
theorem Recorded.count_window (h : s.Recorded bound log) {r : Resource} {start stop : Nat}
    (hstart : bound r < start + s.grid.retentionMs) (hstop : stop < Word.size) (o : Outcome) :
    (s.window r start stop).tally.count o = countIn s.grid r o start stop log := by
  rw [StatStore.count_window (h.series r 0).tidy hstop, ← sum_countOf]
  refine Finset.sum_congr rfl fun place hplace => (h.series r 0).counted ?_ o
  have := (Finset.mem_Ico.mp hplace).1
  omega

/-- Wherever a window begins, it reports no more than the log has. -/
theorem Recorded.count_window_le (h : s.Recorded bound log) (r : Resource) (start : Nat) {stop : Nat}
    (hstop : stop < Word.size) (o : Outcome) :
    (s.window r start stop).tally.count o ≤ countIn s.grid r o start stop log := by
  rw [StatStore.count_window (h.series r 0).tidy hstop, ← sum_countOf]
  exact Finset.sum_le_sum fun place _ => (h.series r 0).atMost place o

end StatStore

/-! ## Runs -/

namespace StatRun

/-- The bounds of a run are the newest slots in its log. -/
theorem recorded_step {run : StatRun}
    (h : run.store.Recorded (newestWritten run.store.grid · run.log) run.log) (c : StatCall) :
    (run.step c).store.Recorded (newestWritten (run.step c).store.grid · (run.step c).log)
      (run.step c).log := by
  have hgrid : (run.step c).store.grid = run.store.grid := run.store.grid_call c
  rw [hgrid]
  cases hw : c.write? run.store with
  | none =>
    have hlog : (run.step c).log = run.log ++ (c.write? run.store).toList := rfl
    refine hlog ▸ (h.mono fun r => ?_).call c fun w hw' => ?_
    · simp [hw]
    · rw [hw] at hw'
      cases hw'
  | some w =>
    have hlog : (run.step c).log = run.log ++ (c.write? run.store).toList := rfl
    refine hlog ▸ (h.mono fun r => ?_).call c fun w' hw' => ?_
    · simp only [hw, Option.toList_some, newestWritten_append]
      split
      · exact Nat.le_max_left _ _
      · exact Nat.le_refl _
    · simp only [hw', Option.toList_some, newestWritten_append]
      simp

theorem recorded_after (slotMs retained : Nat) (calls : List StatCall) :
    let run := (start slotMs retained).after calls
    run.store.Recorded (newestWritten run.store.grid · run.log) run.log := by
  intro run
  induction calls using List.reverseRecOn with
  | nil => exact StatStore.recorded_new slotMs retained _
  | append_singleton calls c ih =>
    simp only [run, after_concat]
    exact recorded_step ih c

/-- **Within the retention span nothing is lost, counted twice, or counted elsewhere.** After any
calls but evictions, made in any order of time, a window that begins less than the retention span
behind the newest slot of its resource reports of every outcome what the log has for the slots of
that resource in the window. -/
theorem count_window_eq_countIn (slotMs retained : Nat) (calls : List StatCall) (r : Resource)
    (o : Outcome) (start stop : Nat) :
    let run := (StatRun.start slotMs retained).after calls
    let g := run.store.grid
    newestWritten g r run.log < start + min (g.retained * g.slotMs) Word.greatest →
      stop < Word.size →
        (run.store.window r start stop).tally.count o = countIn g r o start stop run.log := by
  intro run g hstart hstop
  have hrecorded := recorded_after slotMs retained calls
  exact hrecorded.count_window hstart hstop o

/-- Two slots are kept. The first write is dropped by the second; the writes after that are late, and
one of them brings the dropped slot into being again. The window begins just behind it. -/
theorem count_window_eq_countIn_late :
    let r := Resource.service "s"
    let calls := [StatCall.incr r .completed 500, .tryStart r 1 2500, .tryStart r 1 2600,
      .incr r .completed 700, .incr r .completed 1200, .incr (.service "t") .completed 1300]
    let run := (StatRun.start 1000 2).after calls
    newestWritten run.store.grid r run.log = 2000 ∧
      newestWritten run.store.grid r run.log <
        1 + min (run.store.grid.retained * run.store.grid.slotMs) Word.greatest ∧
      4000 < Word.size ∧ (run.store.window r 1 4000).tally.count .completed = 1 := by
  refine ⟨by decide +kernel, by decide +kernel, by decide, ?_⟩
  have hwindow := count_window_eq_countIn 1000 2 [.incr (.service "s") .completed 500,
    .tryStart (.service "s") 1 2500, .tryStart (.service "s") 1 2600,
    .incr (.service "s") .completed 700, .incr (.service "s") .completed 1200,
    .incr (.service "t") .completed 1300] (.service "s") .completed 1 4000 (by decide +kernel)
    (by decide)
  exact hwindow.trans (by decide +kernel)

end StatRun
end Floodgate
