import Floodgate.Stats.Series

/-!
# What a write does to the slots of a series

A write changes the slot at one place, which comes into being if need be. If that makes it the
newest slot, all slots that lie a full retention span behind it are dropped. `get?_updateSlot` says
so in one equation on the places; `countAt_updateSlot` is the same for the counters.

The equation needs three facts about a series that every write keeps, and that are put together in
`Series.Tidy`: slots lie in the place of their own start, places are multiples of the slot length,
and no slot is newer than the newest.
-/

set_option autoImplicit false

namespace Floodgate
namespace Series

/-- How many requests of an outcome were counted in the slot at a place. -/
def countAt (s : Series) (place : Nat) (o : Outcome) : Nat :=
  ((s.slots.get? place).map fun slot => slot.tally.count o).getD 0

/-- The slots of a series lie where they belong. -/
structure Tidy (slotMs : Nat) (s : Series) : Prop where
  placed : ∀ {place slot}, s.slots.get? place = some slot → slot.start = place
  aligned : ∀ {place slot}, s.slots.get? place = some slot → slotMs ∣ place
  le_newest : ∀ {place slot}, s.slots.get? place = some slot → place ≤ s.newest

/-- Neither when a series was used nor what is in flight has to do with where its slots lie, so
every operation on these two keeps it tidy. -/
theorem Tidy.congr {slotMs : Nat} {s s' : Series} (h : s.Tidy slotMs) (hslots : s'.slots = s.slots)
    (hnewest : s'.newest = s.newest) : s'.Tidy slotMs where
  placed hp := h.placed (hslots ▸ hp)
  aligned hp := h.aligned (hslots ▸ hp)
  le_newest hp := hnewest ▸ h.le_newest (hslots ▸ hp)

/-- Without slots there is nothing to be out of place. A series begins like that, whatever the
length of its slots will be. -/
theorem tidy_of_empty {slotMs : Nat} {s : Series} (h : s.slots = .empty) : s.Tidy slotMs where
  placed hp := by simp [h] at hp
  aligned hp := by simp [h] at hp
  le_newest hp := by simp [h] at hp

@[simp] theorem countAt_default (place : Nat) (o : Outcome) : ({} : Series).countAt place o = 0 :=
  rfl

/-! ## The slot of a time -/

/-- The slot that a write at a place changes. Where there is none yet it starts out with the
requests in flight for its peak, as these have been there since before the slot began. -/
def slotFor (s : Series) (start : Nat) : Slot :=
  (s.slots.get? start).getD (Slot.new start s.inFlight)

/-- A write finds the slot at its place before it expires any, so what it finds does not depend on
the retention span. -/
@[simp] theorem slotAt_fst (s : Series) (start retention : Nat) :
    (s.slotAt start retention).1 = s.slotFor start := by
  unfold slotAt slotFor
  split
  · rename_i slot h
    simp [h]
  · rename_i h
    dsimp only
    split <;> simp [h]

/-- A slot that comes into being has counted nothing, just as a place without a slot has. -/
theorem count_slotFor (s : Series) (start : Nat) (o : Outcome) :
    (s.slotFor start).tally.count o = s.countAt start o := by
  unfold slotFor countAt
  cases s.slots.get? start with
  | some slot => rfl
  | none => cases o <;> rfl

/-- The slot that is put back has to go to the place it was found at, and `updateSlot` puts it back
by its own start. That the two are one is what `Tidy.placed` is for. -/
theorem Tidy.start_slotFor {slotMs : Nat} {s : Series} (h : s.Tidy slotMs) (start : Nat) :
    (s.slotFor start).start = start := by
  unfold slotFor
  cases hs : s.slots.get? start with
  | some slot => exact h.placed hs
  | none => rfl

/-- What is left of the slots when a new one begins: those that lie less than a retention span
behind it. The subtraction stops at zero, and so nothing expires in the first span of all. -/
theorem get?_expire (s : Series) (start retention place : Nat) :
    (s.expire start retention).slots.get? place =
      if place + retention ≤ start then none else s.slots.get? place := by
  unfold expire
  by_cases h : retention ≤ start
  · rw [if_pos h, Table.get?_filter]
    by_cases hp : place + retention ≤ start
    · have hfar : ¬ start - retention < place := by omega
      cases s.slots.get? place <;> simp [hp, hfar, Option.filter]
    · have hnear : start - retention < place := by omega
      cases s.slots.get? place <;> simp [hp, hnear, Option.filter]
  · have hp : ¬ place + retention ≤ start := by omega
    rw [if_neg h, if_neg hp]

@[simp] theorem newest_expire (s : Series) (start retention : Nat) :
    (s.expire start retention).newest = s.newest := by
  unfold expire
  split <;> rfl

variable {slotMs : Nat} {s : Series} {start retention : Nat}

/-- The newest slot is the one written last only where time goes on. A late write leaves it as it
was. -/
theorem Tidy.newest_slotAt (h : s.Tidy slotMs) :
    (s.slotAt start retention).2.newest = max s.newest start := by
  unfold slotAt
  split
  · rename_i slot hs
    exact (Nat.max_eq_left (h.le_newest hs)).symm
  · dsimp only
    split
    · rename_i hlt
      simp [Nat.max_eq_right (Nat.le_of_lt hlt)]
    · rename_i hge
      exact (Nat.max_eq_left (Nat.le_of_not_lt hge)).symm

/-- The slots after a place has been made ready for a write. Slots expire only where the place lies
ahead of all others, and the slot at the place itself never does, since the retention span is
positive. -/
theorem Tidy.get?_slotAt (h : s.Tidy slotMs) (hret : 0 < retention) (place : Nat) :
    (s.slotAt start retention).2.slots.get? place =
      if place = start then some (s.slotFor start)
      else if s.newest < start ∧ place + retention ≤ start then none
      else s.slots.get? place := by
  have hself : ¬ start + retention ≤ start := by omega
  unfold slotAt slotFor
  split
  -- placing it again changes nothing but what is written into it
  · -- the slot is there, and so it is no newer than the newest
    rename_i slot hs
    have hold : ¬ s.newest < start := Nat.not_lt.mpr (h.le_newest hs)
    by_cases hp : place = start
    · subst hp
      simp [hs]
    · simp [hp, hold]
  · rename_i hs
    dsimp only
    by_cases hlt : s.newest < start
    · rw [if_pos hlt, get?_expire, Table.get?_insert]
      by_cases hp : place = start
      · subst hp
        simp [hs, hself]
      · simp [hp, hlt]
    · rw [if_neg hlt, Table.get?_insert]
      by_cases hp : place = start
      · subst hp
        simp [hs]
      · simp [hp, hlt]

/-- Finding a slot is no use of its series, whether or not it makes one. -/
theorem touched_slotAt (s : Series) (start retention : Nat) :
    (s.slotAt start retention).2.touched = s.touched := by
  unfold slotAt
  split
  · rfl
  · dsimp only
    split
    · unfold expire
      split <;> rfl
    · rfl

/-! ## A write -/

variable {f : Slot → Slot}

theorem touched_updateSlot (s : Series) (start retention : Nat) (f : Slot → Slot) :
    (s.updateSlot start retention f).touched = s.touched := s.touched_slotAt start retention

/-- **What a write does**: it changes the slot at its place, and if that is newer than all slots so
far, it drops those that lie a retention span behind. -/
theorem Tidy.get?_updateSlot (h : s.Tidy slotMs) (hret : 0 < retention)
    (hf : ∀ slot, (f slot).start = slot.start) (place : Nat) :
    (s.updateSlot start retention f).slots.get? place =
      if place = start then some (f (s.slotFor start))
      else if s.newest < start ∧ place + retention ≤ start then none
      else s.slots.get? place := by
  have hput : (f (s.slotAt start retention).1).start = start := by
    rw [hf, slotAt_fst, h.start_slotFor]
  show ((s.slotAt start retention).2.slots.modify (f (s.slotAt start retention).1).start
    fun _ => f (s.slotAt start retention).1).get? place = _
  rw [hput, Table.get?_modify, h.get?_slotAt hret, slotAt_fst]
  by_cases hp : place = start <;> simp [hp]

/-- What is written into a slot does not matter for which slot is the newest. -/
theorem Tidy.newest_updateSlot (h : s.Tidy slotMs) (start retention : Nat) (f : Slot → Slot) :
    (s.updateSlot start retention f).newest = max s.newest start := h.newest_slotAt

/-- **Every write keeps a series tidy**, provided that it is made at a multiple of the slot length
and leaves the slot's own start alone. The store writes only at places rounded down to a slot, and
no change of a slot touches its start. -/
theorem Tidy.updateSlot (h : s.Tidy slotMs) (hret : 0 < retention) (hstart : slotMs ∣ start)
    (hf : ∀ slot, (f slot).start = slot.start) : (s.updateSlot start retention f).Tidy slotMs where
  placed {place slot} hp := by
    rw [h.get?_updateSlot hret hf] at hp
    split at hp
    · rename_i hat
      cases hp
      rw [hf, h.start_slotFor, hat]
    · split at hp
      · cases hp
      · exact h.placed hp
  aligned {place slot} hp := by
    rw [h.get?_updateSlot hret hf] at hp
    split at hp
    · rename_i hat
      exact hat ▸ hstart
    · split at hp
      · cases hp
      · exact h.aligned hp
  le_newest {place slot} hp := by
    rw [h.newest_updateSlot]
    rw [h.get?_updateSlot hret hf] at hp
    split at hp
    · rename_i hat
      exact hat ▸ Nat.le_max_right _ _
    · split at hp
      · cases hp
      · exact Nat.le_trans (h.le_newest hp) (Nat.le_max_left _ _)

/-- The counters after a write that adds so many to one of them. This is `get?_updateSlot` read
through the counters, which is all that windows and totals ask for: a slot that has expired counts
nothing. -/
theorem Tidy.countAt_updateSlot (h : s.Tidy slotMs) (hret : 0 < retention)
    (hf : ∀ slot, (f slot).start = slot.start) {o : Outcome} {n : Nat}
    (hn : (f (s.slotFor start)).tally.count o = (s.slotFor start).tally.count o + n)
    (place : Nat) :
    (s.updateSlot start retention f).countAt place o =
      if place = start then s.countAt start o + n
      else if s.newest < start ∧ place + retention ≤ start then 0
      else s.countAt place o := by
  rw [countAt, h.get?_updateSlot hret hf]
  by_cases hp : place = start
  · rw [if_pos hp, if_pos hp, ← count_slotFor, ← hn]
    rfl
  · rw [if_neg hp, if_neg hp]
    split <;> rfl

end Series

/-! ## The changes of a slot -/

namespace Slot

@[simp] theorem start_incr (s : Slot) (o : Outcome) : (s.incr o).start = s.start := rfl

/-- What is written into a slot leaves its start alone, whether there was room or not. -/
@[simp] theorem start_tryStart (s : Slot) (budget : Nat) : (s.tryStart budget).2.start = s.start := by
  unfold tryStart
  split <;> rfl

@[simp] theorem start_recordLatency (s : Slot) (ms : Nat) : (s.recordLatency ms).start = s.start :=
  rfl

@[simp] theorem start_recordState (s : Slot) (state : BreakerState) :
    (s.recordState state).start = s.start := rfl

@[simp] theorem start_observe (s : Slot) (inFlight : Nat) : (s.observe inFlight).start = s.start :=
  rfl

@[simp] theorem tally_recordLatency (s : Slot) (ms : Nat) : (s.recordLatency ms).tally = s.tally :=
  rfl

@[simp] theorem tally_recordState (s : Slot) (state : BreakerState) :
    (s.recordState state).tally = s.tally := rfl

@[simp] theorem tally_observe (s : Slot) (inFlight : Nat) : (s.observe inFlight).tally = s.tally :=
  rfl

/-- Asking for room notes nothing of the breaker. -/
@[simp] theorem state_tryStart (s : Slot) (budget : Nat) : (s.tryStart budget).2.state = s.state := by
  unfold tryStart
  split <;> rfl

/-- What a slot says of latencies: their sum and the greatest of them. The two are written together
and read together, so the lemmas name them as one. -/
def latency (s : Slot) : Nat × Nat := (s.totalLatency, s.maxLatency)

theorem latency_tryStart (s : Slot) (budget : Nat) : (s.tryStart budget).2.latency = s.latency := by
  unfold tryStart
  split <;> rfl

/-- An increment counts one outcome once, and the other counters stay what they were. -/
theorem count_incr (s : Slot) (o o' : Outcome) :
    (s.incr o).tally.count o' = s.tally.count o' + if o' = o then 1 else 0 := s.tally.count_incr o o'

/-- There is room exactly while fewer requests have started in the slot than the budget says, so a
budget of nothing lets nobody pass. -/
@[simp] theorem tryStart_fst (s : Slot) (budget : Nat) :
    (s.tryStart budget).1 = decide (s.tally.count .started < budget) := by
  unfold tryStart
  split
  · exact (decide_eq_true ‹_›).symm
  · exact (decide_eq_false ‹_›).symm

/-- A request that is granted is counted as started at once, and one that is not is not counted at
all. This is why the counter can never exceed the budget. -/
theorem count_tryStart (s : Slot) (budget : Nat) (o : Outcome) :
    (s.tryStart budget).2.tally.count o =
      s.tally.count o + if o = .started ∧ s.tally.count .started < budget then 1 else 0 := by
  have hcount : s.tally.count .started = s.tally.started := rfl
  unfold tryStart
  rw [hcount]
  split
  · rename_i hlt
    simp [count_incr, hlt]
  · rename_i hge
    simp [hge]

end Slot
end Floodgate
