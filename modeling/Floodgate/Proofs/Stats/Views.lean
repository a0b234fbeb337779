import Floodgate.Proofs.Stats.Slots
import Floodgate.Proofs.Stats.Units

/-!
# The store after each operation

A store is looked at through `get?`, which gives the present series of a resource. Each operation
works on the series of one resource, which is made first if there is none (`seriesAt`), and leaves
the series of all other resources alone. There is one equation for each of them, and none of them
speaks of handles, except where an operation is given one.

The grid of a store is for good.
-/

set_option autoImplicit false

namespace Floodgate
namespace StatStore

/-! ## The grid -/

variable (s : StatStore) (r : Resource) (h : Handle Resource) (now : Nat)

@[simp] theorem grid_modify (f : Series → Series) : (s.modify h f).grid = s.grid := rfl

@[simp] theorem grid_updateSlot (f : Slot → Slot) : (s.updateSlot h now f).grid = s.grid := rfl

@[simp] theorem grid_observe : (s.observe h now).grid = s.grid := rfl

@[simp] theorem grid_release : (s.release h).grid = s.grid := rfl

@[simp] theorem grid_evictIdle (idleMs : Nat) : (s.evictIdle now idleMs).grid = s.grid := rfl

/-- Counting never moves the grid, so a time falls into the same slot before and after any
operation. -/
@[simp] theorem grid_track : (s.track r now).2.grid = s.grid := by
  unfold track
  split <;> rfl

@[simp] theorem grid_used : (s.used r now).grid = s.grid := s.grid_track r now

@[simp] theorem grid_incr (o : Outcome) : (s.incr r o now).grid = s.grid := s.grid_track r now

@[simp] theorem grid_tryStart (budget : Nat) : (s.tryStart r budget now).2.grid = s.grid :=
  s.grid_track r now

@[simp] theorem grid_recordLatency (ms : Nat) : (s.recordLatency r ms now).grid = s.grid :=
  s.grid_track r now

@[simp] theorem grid_recordState (state : BreakerState) :
    (s.recordState r state now).grid = s.grid := s.grid_track r now

@[simp] theorem grid_acquireUnbounded : (s.acquireUnbounded r now).2.grid = s.grid :=
  s.grid_track r now

@[simp] theorem grid_acquire (limit : Option Nat) : (s.acquire r limit now).2.grid = s.grid := by
  rw [acquire_eq]
  split <;> simp

/-! ## Changes through a handle -/

/-- A change through a handle reaches a resource only as long as the handle is that of its present
series. A handle that outlives its series changes one that nobody finds any more. -/
theorem get?_modify (f : Series → Series) (r' : Resource) :
    (s.modify h f).get? r' =
      if s.series.handle? r' = some h then (s.get? r').map f else s.get? r' :=
  s.series.current?_modify h f r'

variable {s r h} in
/-- Through the handle of the present series a change is a change of the resource. -/
theorem get?_modify_of_handle? (hr : s.series.handle? r = some h) (f : Series → Series)
    (r' : Resource) :
    (s.modify h f).get? r' = if r' = r then (s.get? r).map f else s.get? r' :=
  Roster.current?_modify_of_handle? hr f r'

/-- The requests in flight are shown in the present slot, if the handle is still that of the series
of the resource. -/
theorem get?_observe (r' : Resource) :
    (s.observe h now).get? r' =
      if s.series.handle? r' = some h then
        (s.get? r').map fun series =>
          series.updateSlot (s.grid.floor now) s.grid.retentionMs (·.observe series.inFlight)
      else s.get? r' := by
  rw [observe, updateSlot, get?_modify]
  split
  · rename_i hr
    have hheld : s.held? h = s.get? r' := Roster.get?_of_handle? hr
    rw [hheld]
    cases s.get? r' <;> rfl
  · rfl

/-! ## Changes of the series of a resource -/

/-- The series of a resource as an operation finds it, which makes one if there is none. A new
series is without slots and without requests in flight. -/
def seriesAt : Series := (s.get? r).getD (Series.new now)

/-- When a series is made if there is none is nothing to its slots. The time only goes into when it
was last touched. -/
theorem slots_seriesAt (s : StatStore) (r : Resource) (t t' : Nat) :
    (s.seriesAt r t).slots = (s.seriesAt r t').slots ∧
      (s.seriesAt r t).newest = (s.seriesAt r t').newest := by
  unfold seriesAt
  cases s.get? r <;> exact ⟨rfl, rfl⟩

/-- To find the series of a resource may be to make it, and that is all that finding it does. -/
theorem get?_track (r' : Resource) :
    (s.track r now).2.get? r' = if r' = r then some (s.seriesAt r now) else s.get? r' := by
  cases hr : s.series.handle? r with
  | some h =>
    have hsome : (s.get? r).isSome := by
      rw [get?, ← Roster.handle?_isSome, hr]
      rfl
    obtain ⟨series, hseries⟩ := Option.isSome_iff_exists.mp hsome
    rw [show s.track r now = (h, s) by simp [track, hr]]
    by_cases e : r' = r
    · subst e
      simp [seriesAt, hseries]
    · simp [e]
  | none =>
    have hnone : s.get? r = none := (s.series.handle?_eq_none_iff r).mp hr
    simp only [track, hr, seriesAt, hnone, Option.getD_none]
    exact s.series.current?_install r r' (Series.new now)

/-- The series that was found is changed, whether it was there or has just been made. The operations
below are this equation with the change written out. -/
theorem get?_track_modify (f : Series → Series) (r' : Resource) :
    ((s.track r now).2.modify (s.track r now).1 f).get? r' =
      if r' = r then some (f (s.seriesAt r now)) else s.get? r' := by
  rw [get?_modify_of_handle? (s.handle?_track r now), get?_track, get?_track]
  by_cases e : r' = r <;> simp [e]

/-- A resource that is used is touched, which is what keeps it from being evicted as idle. -/
theorem get?_used (r' : Resource) :
    (s.used r now).get? r' =
      if r' = r then some ((s.seriesAt r now).touch now) else s.get? r' :=
  s.get?_track_modify r now _ r'

theorem get?_used_modify (f : Series → Series) (r' : Resource) :
    ((s.used r now).modify (s.track r now).1 f).get? r' =
      if r' = r then some (f ((s.seriesAt r now).touch now)) else s.get? r' := by
  rw [get?_modify_of_handle? (s.handle?_used r now), get?_used, get?_used]
  by_cases e : r' = r <;> simp [e]

/-- An increment touches the series and counts in the present slot. -/
theorem get?_incr (o : Outcome) (r' : Resource) :
    (s.incr r o now).get? r' =
      if r' = r then
        some (((s.seriesAt r now).touch now).updateSlot (s.grid.floor now) s.grid.retentionMs
          (·.incr o))
      else s.get? r' := by
  rw [← s.grid_used r now]
  exact s.get?_used_modify r now _ r'

/-- A start that is asked for touches the series and may open a slot, even where there is no room
and nothing is counted. -/
theorem get?_tryStart (budget : Nat) (r' : Resource) :
    (s.tryStart r budget now).2.get? r' =
      if r' = r then
        some (((s.seriesAt r now).touch now).updateSlot (s.grid.floor now) s.grid.retentionMs
          fun slot => (slot.tryStart budget).2)
      else s.get? r' := by
  rw [← s.grid_used r now]
  exact s.get?_used_modify r now _ r'

/-- There is room for a request as long as fewer have started in the slot than the budget says. A
slot that is not there has counted nothing. -/
theorem tryStart_fst (budget : Nat) :
    (s.tryStart r budget now).1 =
      decide ((s.seriesAt r now).countAt (s.grid.floor now) .started < budget) := by
  have hheld : (s.used r now).held? (s.track r now).1 = some ((s.seriesAt r now).touch now) := by
    have hview := s.get?_used r now r
    rw [if_pos rfl] at hview
    exact (Roster.get?_of_handle? (s.handle?_used r now)).trans hview
  show (((s.used r now).held? (s.track r now).1).map fun series =>
    (series.slotAt ((s.used r now).grid.floor now) (s.used r now).grid.retentionMs).1).any
      (fun slot => (slot.tryStart budget).1) = _
  rw [hheld, grid_used]
  simp only [Option.map_some, Option.any_some, Series.slotAt_fst, Slot.tryStart_fst,
    Series.count_slotFor]
  rfl

/-- A request is counted in the slot exactly if there is room for it, and then as started once. -/
theorem count_tryStart (budget : Nat) (o : Outcome) :
    let slot := ((s.seriesAt r now).touch now).slotFor (s.grid.floor now)
    let counted := if (s.tryStart r budget now).1 then some Outcome.started else none
    (slot.tryStart budget).2.tally.count o =
      slot.tally.count o + if counted = some o then 1 else 0 := by
  intro slot counted
  have hroom : slot.tally.count .started =
      (s.seriesAt r now).countAt (s.grid.floor now) .started := Series.count_slotFor _ _ _
  simp only [counted, Slot.count_tryStart, hroom, s.tryStart_fst r now budget]
  by_cases hlt : (s.seriesAt r now).countAt (s.grid.floor now) .started < budget
  · simp [hlt, eq_comm]
  · simp [hlt]

/-- A latency goes into the present slot and does not touch the series. It comes with a count of the
same request, and that one does. -/
theorem get?_recordLatency (ms : Nat) (r' : Resource) :
    (s.recordLatency r ms now).get? r' =
      if r' = r then
        some ((s.seriesAt r now).updateSlot (s.grid.floor now) s.grid.retentionMs
          (·.recordLatency ms))
      else s.get? r' := by
  rw [← s.grid_track r now]
  exact s.get?_track_modify r now _ r'

/-- A state that is shown does not touch the series either, and no count comes with it. A series
that is only shown states is evicted as idle. -/
theorem get?_recordState (state : BreakerState) (r' : Resource) :
    (s.recordState r state now).get? r' =
      if r' = r then
        some ((s.seriesAt r now).updateSlot (s.grid.floor now) s.grid.retentionMs
          (·.recordState state))
      else s.get? r' := by
  rw [← s.grid_track r now]
  exact s.get?_track_modify r now _ r'

theorem get?_acquireUnbounded (r' : Resource) :
    (s.acquireUnbounded r now).2.get? r' =
      if r' = r then some ((s.seriesAt r now).touch now).acquire else s.get? r' :=
  s.get?_track_modify r now _ r'

/-- A unit is taken if fewer are in flight than the limit says, or if there is no limit. The series
is touched even if none is taken. -/
theorem get?_acquire (limit : Option Nat) (r' : Resource) :
    (s.acquire r limit now).2.get? r' =
      if r' = r then
        some (if limit.any (· ≤ s.inFlight r) then (s.seriesAt r now).touch now
          else ((s.seriesAt r now).touch now).acquire)
      else s.get? r' := by
  rw [acquire_eq]
  split
  · exact s.get?_used r now r'
  · exact s.get?_used_modify r now _ r'

/-- Giving a unit back changes the count of requests in flight and nothing else. -/
theorem seriesAt_release (hd : Handle Resource) (t : Nat) :
    ∃ n, (s.release hd).seriesAt r t = { s.seriesAt r t with inFlight := n } := by
  simp only [seriesAt, StatStore.release, get?_modify]
  split
  · cases s.get? r with
    | some x => exact ⟨x.inFlight - 1, rfl⟩
    | none => exact ⟨_, rfl⟩
  · exact ⟨_, rfl⟩

theorem get?_evictIdle (idleMs : Nat) (r' : Resource) :
    (s.evictIdle now idleMs).get? r' = (s.get? r').filter (isKept now idleMs) :=
  s.series.current?_retain _ r'

/-- An eviction leaves a series as it is, or it was idle for so long and nothing is left of it. In
the second case an operation starts again from a new series. -/
theorem seriesAt_evictIdle_cases (idleMs t : Nat) :
    (s.evictIdle now idleMs).seriesAt r t = s.seriesAt r t ∨
      (s.evictIdle now idleMs).seriesAt r t = Series.new t ∧
        idleMs ≤ now - (s.seriesAt r t).touched := by
  rw [seriesAt, get?_evictIdle, seriesAt]
  cases s.get? r with
  | none => exact Or.inl rfl
  | some x =>
    by_cases hkept : isKept now idleMs x = true
    · exact Or.inl (by rw [Option.filter_some, if_pos hkept])
    · refine Or.inr ⟨by rw [Option.filter_some, if_neg hkept]; rfl, ?_⟩
      simp only [isKept, Bool.or_eq_true, decide_eq_true_eq, not_or, Nat.not_lt] at hkept
      exact hkept.2

variable {s r h} in
/-- The handle of a present series shows the same as its resource, so an operation that holds it
need not say which of the two it means. -/
theorem get?_observe_of_handle? (hr : s.series.handle? r = some h) (r' : Resource) :
    (s.observe h now).get? r' =
      if r' = r then
        some ((s.seriesAt r now).updateSlot (s.grid.floor now) s.grid.retentionMs
          (·.observe (s.seriesAt r now).inFlight))
      else s.get? r' := by
  obtain ⟨x, hx⟩ : ∃ x, s.get? r = some x := Option.isSome_iff_exists.mp (by
    rw [get?, ← Roster.handle?_isSome, hr]
    rfl)
  rw [get?_observe]
  by_cases e : r' = r
  · subst e
    simp [hr, hx, seriesAt]
  · have hother : s.series.handle? r' ≠ some h := fun hr' =>
      e ((Roster.key_of_handle? hr').symm.trans (Roster.key_of_handle? hr))
    rw [if_neg hother, if_neg e]

end StatStore
end Floodgate
