import Floodgate.Proofs.Stats.Overflow

/-!
# Stores that differ by evictions

An eviction drops the series of a resource with all that it has counted, and the next request finds
a new series. `StatStore.Alike` compares a store in which that has happened with one in which it has
not: in the slots that begin less than a span ago both have the same counters and the same sums of
latencies, which is all of a slot that bears on what a request is answered (`Figures`). What an
eviction drops has not been used for so long, and a request is counted only where a series is used,
so there is nothing to miss (`Alike.evictIdle`). Writes that leave the figures alone may come later
than the last use; they are lost. A latency is noted right after its request is counted, and so at a
series that is in use.

The new series has forgotten which slot was the newest, and a write drops slots only when it makes a
newer one. So the same write may drop slots from one of the two series and none from the other.
`Series.Settled` has the reason why this makes no difference: where time does not go back, the
figures of a slot that lies a retention span behind the newest are nought.
-/

set_option autoImplicit false

namespace Floodgate

/-! ## The figures of a slot -/

/-- What of a slot bears on what a request is answered. The limiter and the breakers go by the
counters; the sum of the latencies may keep a breaker from answering at all. -/
structure Figures where
  tally : Tally := {}
  latency : Nat := 0

namespace Figures

def incr (x : Figures) (o : Outcome) : Figures := { x with tally := x.tally.incr o }

def tryStart (x : Figures) (budget : Nat) : Figures :=
  if x.tally.started < budget then x.incr .started else x

def addLatency (x : Figures) (ms : Nat) : Figures :=
  { x with latency := Word.addWrapping x.latency ms }

end Figures

def Slot.figures (slot : Slot) : Figures where
  tally := slot.tally
  latency := slot.totalLatency

/-- What a request that wants to start makes of a slot depends on the slot by its figures alone, so
that two slots with the same figures are changed alike. -/
theorem Slot.figures_tryStart (slot : Slot) (budget : Nat) :
    (slot.tryStart budget).2.figures = slot.figures.tryStart budget := by
  have hstarted : slot.figures.tally.started = slot.tally.started := rfl
  unfold tryStart Figures.tryStart
  rw [hstarted]
  split <;> rfl

/-! ## One series -/

namespace Series

variable {g : Grid} {now now' : Nat} {x x' : Series}

/-- The figures of the slot at a place, nought if there is none. -/
def figuresAt (s : Series) (place : Nat) : Figures :=
  ((s.slots.get? place).map Slot.figures).getD {}

theorem countAt_eq (s : Series) (place : Nat) (o : Outcome) :
    s.countAt place o = (s.figuresAt place).tally.count o := by
  rw [countAt, figuresAt]
  cases s.slots.get? place with
  | some slot => rfl
  | none => cases o <;> rfl

theorem latencyAt_eq (s : Series) (place : Nat) : s.latencyAt place = (s.figuresAt place).latency := by
  rw [latencyAt, figuresAt]
  cases s.slots.get? place <;> rfl

theorem figures_slotFor (s : Series) (start : Nat) :
    (s.slotFor start).figures = s.figuresAt start := by
  rw [slotFor, figuresAt]
  cases s.slots.get? start <;> rfl

/-- The figures of a series that is written in order of time. Without that order a late write could
bring back a slot that had expired, and what it held would depend on whether the series was evicted in
between. -/
structure Settled (g : Grid) (now : Nat) (x : Series) : Prop where
  tidy : x.Tidy g.slotMs
  newest_le : x.newest ≤ g.floor now
  /-- The figures of slots that have expired are nought. -/
  expired : ∀ {place}, place + g.retentionMs ≤ x.newest → x.figuresAt place = {}
  /-- So are those of slots after the last use. -/
  unused : ∀ {place}, x.touched < place → x.figuresAt place = {}

theorem settled_new (g : Grid) (now t : Nat) : (Series.new t).Settled g now where
  tidy := tidy_of_empty rfl
  newest_le := Nat.zero_le _
  expired _ := rfl
  unused _ := rfl

theorem Settled.mono (h : x.Settled g now) (hle : now ≤ now') : x.Settled g now' :=
  { h with newest_le := Nat.le_trans h.newest_le (g.floor_mono hle) }

/-- Of a series only the slots matter, the newest of them, and that it has not been used less: what
is in flight changes from call to call and is of no concern here. -/
theorem Settled.congr (h : x.Settled g now) (hslots : x'.slots = x.slots)
    (hnewest : x'.newest = x.newest) (htouched : x.touched ≤ x'.touched) : x'.Settled g now where
  tidy := h.tidy.congr hslots hnewest
  newest_le := hnewest ▸ h.newest_le
  expired {place} hp := by
    rw [figuresAt, hslots]
    exact h.expired (hnewest ▸ hp)
  unused {place} hp := by
    rw [figuresAt, hslots]
    exact h.unused (Nat.lt_of_le_of_lt htouched hp)

/-- What a write in the slot of the present makes of the figures does not depend on the newest slot
so far. That is the one thing in which a new series differs from the one that was evicted. -/
theorem Settled.figuresAt_updateSlot (h : x.Settled g now) {f : Slot → Slot}
    (hf : ∀ slot, (f slot).start = slot.start) {change : Figures → Figures}
    (hchange : ∀ slot, (f slot).figures = change slot.figures) (place : Nat) :
    (x.updateSlot (g.floor now) g.retentionMs f).figuresAt place =
      if place = g.floor now then change (x.figuresAt place)
      else if place + g.retentionMs ≤ g.floor now then {}
      else x.figuresAt place := by
  rw [figuresAt, h.tidy.get?_updateSlot g.retentionMs_pos hf]
  by_cases hat : place = g.floor now
  · rw [if_pos hat, if_pos hat, Option.map_some, Option.getD_some, hchange, figures_slotFor, hat]
  · rw [if_neg hat, if_neg hat]
    by_cases hold : place + g.retentionMs ≤ g.floor now
    · rw [if_pos hold]
      split
      · rfl
      · -- the slot of the present was there before, and what lies so far behind it had expired
        rename_i hkept
        exact h.expired (by omega)
    · rw [if_neg hold, if_neg fun hdropped => hold hdropped.2]
      rfl

/-- A write in the slot of the present keeps a series settled. It must use the series, unless it
leaves the figures alone. -/
theorem Settled.updateSlot (h : x.Settled g now) {f : Slot → Slot}
    (hf : ∀ slot, (f slot).start = slot.start) {change : Figures → Figures}
    (hchange : ∀ slot, (f slot).figures = change slot.figures)
    (hused : change = id ∨ now ≤ x.touched) :
    (x.updateSlot (g.floor now) g.retentionMs f).Settled g now where
  tidy := h.tidy.updateSlot g.retentionMs_pos (g.dvd_floor now) hf
  newest_le := by
    rw [h.tidy.newest_updateSlot]
    exact Nat.max_le.mpr ⟨h.newest_le, Nat.le_refl _⟩
  expired {place} hp := by
    have hret := g.retentionMs_pos
    rw [h.tidy.newest_updateSlot, Nat.max_eq_right h.newest_le] at hp
    rw [h.figuresAt_updateSlot hf hchange, if_neg (by omega), if_pos hp]
  unused {place} hp := by
    rw [touched_updateSlot] at hp
    rw [h.figuresAt_updateSlot hf hchange, h.unused hp]
    split
    · -- the present lies after the last use, so the write leaves the figures alone
      rename_i hat
      have hnow := g.floor_le now
      rcases hused with rfl | hused
      · rfl
      · omega
    · split <;> rfl

end Series

namespace StatStore

variable {s s' t t' : StatStore} {now now' span : Nat} {r : Resource}

/-! ## One store -/

/-- The figures of a resource in the slot at a place. -/
def figures (s : StatStore) (r : Resource) (place : Nat) : Figures := (s.seriesAt r 0).figuresAt place

theorem figuresAt_seriesAt (s : StatStore) (r : Resource) (now place : Nat) :
    (s.seriesAt r now).figuresAt place = s.figures r place := by
  unfold figures seriesAt
  cases s.get? r <;> rfl

/-- The figures of a store that is written in order of time. -/
def Settled (now : Nat) (s : StatStore) : Prop := ∀ r t, (s.seriesAt r t).Settled s.grid now

theorem settled_new (slotMs retained now : Nat) : (StatStore.new slotMs retained).Settled now :=
  fun _ t => Series.settled_new _ now t

theorem Settled.mono (h : s.Settled now) (hle : now ≤ now') : s.Settled now' :=
  fun r t => (h r t).mono hle

/-- The slot of the present has been written at a resource, which has changed its figures in some
way. The change is a function of the figures, so that the same write can be told of two stores. -/
structure Written (now : Nat) (r : Resource) (change : Figures → Figures) (s s' : StatStore) :
    Prop where
  grid : s'.grid = s.grid
  settled : s'.Settled now
  figures : ∀ r' place, s'.figures r' place =
    if r' = r then
      if place = s.grid.floor now then change (s.figures r' place)
      else if place + s.grid.retentionMs ≤ s.grid.floor now then {}
      else s.figures r' place
    else s.figures r' place

/-- No slot has been written. -/
structure Unwritten (now : Nat) (s s' : StatStore) : Prop where
  grid : s'.grid = s.grid
  settled : s'.Settled now
  figures : ∀ r place, s'.figures r place = s.figures r place

/-- An operation that writes the slot of the present, in a series that is the present one of its
resource but for what is in flight and for when it was used. -/
theorem Settled.written (h : s.Settled now) (hgrid : s'.grid = s.grid) {x : Series}
    {f : Slot → Slot} {change : Figures → Figures}
    (hview : ∀ r', s'.get? r' =
      if r' = r then some (x.updateSlot (s.grid.floor now) s.grid.retentionMs f) else s.get? r')
    (hslots : x.slots = (s.seriesAt r now).slots)
    (hnewest : x.newest = (s.seriesAt r now).newest)
    (htouched : (s.seriesAt r now).touched ≤ x.touched) (hused : change = id ∨ now ≤ x.touched)
    (hf : ∀ slot, (f slot).start = slot.start)
    (hchange : ∀ slot, (f slot).figures = change slot.figures) : s.Written now r change s' where
  grid := hgrid
  settled r' t := by
    rw [seriesAt_of_get? hview, hgrid]
    split
    · rename_i e
      subst e
      exact ((h r' now).congr hslots hnewest htouched).updateSlot hf hchange hused
    · exact h r' t
  figures r' place := by
    rw [StatStore.figures, seriesAt_of_get? hview]
    split
    · rename_i e
      subst e
      have hx := (h r' now).congr hslots hnewest htouched
      have hsame : x.figuresAt place = s.figures r' place := by
        rw [← s.figuresAt_seriesAt r' now, Series.figuresAt, hslots, Series.figuresAt]
      rw [hx.figuresAt_updateSlot hf hchange, hsame]
    · rfl

/-- An operation that writes no slot. -/
theorem Settled.unwritten (h : s.Settled now) (hgrid : s'.grid = s.grid) {x : Series}
    (hview : ∀ r', s'.get? r' = if r' = r then some x else s.get? r')
    (hslots : x.slots = (s.seriesAt r now).slots)
    (hnewest : x.newest = (s.seriesAt r now).newest)
    (htouched : (s.seriesAt r now).touched ≤ x.touched) : s.Unwritten now s' where
  grid := hgrid
  settled r' t := by
    rw [seriesAt_of_get? hview, hgrid]
    split
    · rename_i e
      subst e
      exact (h r' now).congr hslots hnewest htouched
    · exact h r' t
  figures r' place := by
    rw [StatStore.figures, seriesAt_of_get? hview]
    split
    · rename_i e
      subst e
      rw [← s.figuresAt_seriesAt r' now, Series.figuresAt, hslots, Series.figuresAt]
    · rfl

namespace Settled

variable (h : s.Settled now) (r : Resource)

include h

theorem incr (o : Outcome) : s.Written now r (·.incr o) (s.incr r o now) :=
  h.written (s.grid_incr r now o) (s.get?_incr r now o) rfl rfl (Nat.le_max_left _ _)
    (.inr (Nat.le_max_right _ _)) (·.start_incr o) fun _ => rfl

theorem tryStart (budget : Nat) :
    s.Written now r (·.tryStart budget) (s.tryStart r budget now).2 :=
  h.written (s.grid_tryStart r now budget) (s.get?_tryStart r now budget) rfl rfl
    (Nat.le_max_left _ _) (.inr (Nat.le_max_right _ _)) (·.start_tryStart budget)
    (·.figures_tryStart budget)

/-- A latency does not count as a use, so it must be noted at a series that is in use anyway. -/
theorem recordLatency (hused : now ≤ (s.seriesAt r now).touched) (ms : Nat) :
    s.Written now r (·.addLatency ms) (s.recordLatency r ms now) :=
  h.written (s.grid_recordLatency r now ms) (s.get?_recordLatency r now ms) rfl rfl
    (Nat.le_refl _) (.inr hused) (·.start_recordLatency ms) fun _ => rfl

theorem recordState (state : BreakerState) : s.Written now r id (s.recordState r state now) :=
  h.written (s.grid_recordState r now state) (s.get?_recordState r now state) rfl rfl
    (Nat.le_refl _) (.inl rfl) (·.start_recordState state) fun _ => rfl

variable {r} in
theorem observe {hd : Handle Resource} (hr : s.series.handle? r = some hd) :
    s.Written now r id (s.observe hd now) :=
  h.written (s.grid_observe hd now) (get?_observe_of_handle? now hr) rfl rfl (Nat.le_refl _)
    (.inl rfl) (·.start_observe _) fun _ => rfl

theorem acquire (limit : Option Nat) : s.Unwritten now (s.acquire r limit now).2 := by
  refine h.unwritten (s.grid_acquire r now limit) (s.get?_acquire r now limit) ?_ ?_ ?_
  · split <;> rfl
  · split <;> rfl
  · split <;> exact Nat.le_max_left _ _

theorem acquireUnbounded : s.Unwritten now (s.acquireUnbounded r now).2 :=
  h.unwritten (s.grid_acquireUnbounded r now) (s.get?_acquireUnbounded r now) rfl rfl
    (Nat.le_max_left _ _)

omit r in
theorem release (hd : Handle Resource) : s.Unwritten now (s.release hd) where
  grid := rfl
  settled r t := by
    obtain ⟨n, hn⟩ := s.seriesAt_release r hd t
    rw [hn]
    exact (h r t).congr rfl rfl (Nat.le_refl _)
  figures r place := by
    obtain ⟨n, hn⟩ := s.seriesAt_release r hd 0
    rw [StatStore.figures, hn]
    rfl

end Settled

/-- A series in which a request has just been counted is in use. -/
theorem le_touched_incr (s : StatStore) (r : Resource) (o : Outcome) (now : Nat) :
    now ≤ ((s.incr r o now).seriesAt r now).touched := by
  rw [seriesAt_of_get? (s.get?_incr r now o), if_pos rfl, Series.touched_updateSlot]
  exact Nat.le_max_right _ _

/-! ## Two stores -/

/-- Two stores on a grid have the same figures in all slots that begin less than a span ago. The
span is no shorter than a slot, so the slot of the present is one of them. -/
structure Alike (g : Grid) (span now : Nat) (s t : StatStore) : Prop where
  grid : s.grid = g ∧ t.grid = g
  slot_le : g.slotMs ≤ span
  settled : s.Settled now ∧ t.Settled now
  figures : ∀ {r place}, now < place + span → s.figures r place = t.figures r place

namespace Alike

variable {g : Grid}

theorem refl (hgrid : s.grid = g) (hspan : g.slotMs ≤ span) (hs : s.Settled now) :
    Alike g span now s s := ⟨⟨hgrid, hgrid⟩, hspan, ⟨hs, hs⟩, fun _ => rfl⟩

/-- As time goes on, fewer slots have to agree. -/
theorem mono (h : Alike g span now s t) (hle : now ≤ now') : Alike g span now' s t where
  grid := h.grid
  slot_le := h.slot_le
  settled := ⟨h.settled.1.mono hle, h.settled.2.mono hle⟩
  figures hp := h.figures (Nat.lt_of_le_of_lt hle hp)

/-- The same slot is written in both, in the same way. -/
theorem written (h : Alike g span now s t) {change : Figures → Figures}
    (hs : s.Written now r change s') (ht : t.Written now r change t') : Alike g span now s' t' where
  grid := ⟨hs.grid.trans h.grid.1, ht.grid.trans h.grid.2⟩
  slot_le := h.slot_le
  settled := ⟨hs.settled, ht.settled⟩
  figures hp := by
    rw [hs.figures, ht.figures, h.figures hp, h.grid.1, h.grid.2]

theorem unwritten (h : Alike g span now s t) (hs : s.Unwritten now s') (ht : t.Unwritten now t') :
    Alike g span now s' t' where
  grid := ⟨hs.grid.trans h.grid.1, ht.grid.trans h.grid.2⟩
  slot_le := h.slot_le
  settled := ⟨hs.settled, ht.settled⟩
  figures hp := by
    rw [hs.figures, ht.figures, h.figures hp]

/-! What is done in both stores. -/

section Both

variable (h : Alike g span now s t)

include h

theorem incr (r : Resource) (o : Outcome) : Alike g span now (s.incr r o now) (t.incr r o now) :=
  h.written (h.settled.1.incr r o) (h.settled.2.incr r o)

/-- A latency, noted where a request has just been counted. -/
theorem incr_recordLatency (r : Resource) (o : Outcome) (ms : Nat) :
    Alike g span now ((s.incr r o now).recordLatency r ms now)
      ((t.incr r o now).recordLatency r ms now) := by
  have hcounted := h.incr r o
  exact hcounted.written (hcounted.settled.1.recordLatency r (s.le_touched_incr r o now) ms)
    (hcounted.settled.2.recordLatency r (t.le_touched_incr r o now) ms)

theorem recordState (r : Resource) (state : BreakerState) :
    Alike g span now (s.recordState r state now) (t.recordState r state now) :=
  h.written (h.settled.1.recordState r state) (h.settled.2.recordState r state)

/-- The slot of the present has counted the same in both, so both give the same answer. -/
theorem tryStart (r : Resource) (budget : Nat) :
    (s.tryStart r budget now).1 = (t.tryStart r budget now).1 ∧
      Alike g span now (s.tryStart r budget now).2 (t.tryStart r budget now).2 := by
  have hnow : now < g.floor now + span :=
    Nat.lt_of_lt_of_le (g.lt_floor_add now) (Nat.add_le_add_left h.slot_le _)
  refine ⟨?_, h.written (h.settled.1.tryStart r budget) (h.settled.2.tryStart r budget)⟩
  rw [s.tryStart_fst r now budget, t.tryStart_fst r now budget, Series.countAt_eq,
    Series.countAt_eq, figuresAt_seriesAt, figuresAt_seriesAt, h.grid.1, h.grid.2, h.figures hnow]

theorem observe {hs ht : Handle Resource} (hpresent : s.series.handle? r = some hs)
    (hpresent' : t.series.handle? r = some ht) :
    Alike g span now (s.observe hs now) (t.observe ht now) :=
  h.written (h.settled.1.observe hpresent) (h.settled.2.observe hpresent')

theorem acquire (r : Resource) (limit : Option Nat) :
    Alike g span now (s.acquire r limit now).2 (t.acquire r limit now).2 :=
  h.unwritten (h.settled.1.acquire r limit) (h.settled.2.acquire r limit)

theorem acquireUnbounded (r : Resource) :
    Alike g span now (s.acquireUnbounded r now).2 (t.acquireUnbounded r now).2 :=
  h.unwritten (h.settled.1.acquireUnbounded r) (h.settled.2.acquireUnbounded r)

theorem release (hs ht : Handle Resource) : Alike g span now (s.release hs) (t.release ht) :=
  h.unwritten (h.settled.1.release hs) (h.settled.2.release ht)

end Both

/-- **An eviction drops nothing that was counted less than the span ago**, if it spares what was
used less than the span ago. -/
theorem evictIdle {idleMs : Nat} (h : Alike g span now s t) (hidle : span ≤ idleMs) :
    Alike g span now (s.evictIdle now idleMs) t where
  grid := h.grid
  slot_le := h.slot_le
  settled := by
    refine ⟨fun r t' => ?_, h.settled.2⟩
    rcases s.seriesAt_evictIdle_cases r now idleMs t' with hsame | ⟨hgone, -⟩
    · rw [hsame]
      exact h.settled.1 r t'
    · rw [hgone]
      exact Series.settled_new _ now t'
  figures {r place} hp := by
    have hpos := g.slotMs_pos
    have hslot := h.slot_le
    rw [← h.figures hp, StatStore.figures, StatStore.figures]
    rcases s.seriesAt_evictIdle_cases r now idleMs 0 with hsame | ⟨hgone, hover⟩
    · rw [hsame]
    · rw [hgone, (h.settled.1 r 0).unused (by omega)]
      rfl

section Window

variable (h : Alike g span now s t) (r : Resource) {start stop : Nat} (hstart : now < start + span)
  (hstop : stop < Word.size)

include h hstart hstop

/-- A window that begins less than the span ago counts the same in both. -/
theorem tally_window : (s.window r start stop).tally = (t.window r start stop).tally := by
  refine Tally.ext_count fun o => ?_
  rw [count_window (h.settled.1 r 0).tidy hstop, count_window (h.settled.2 r 0).tidy hstop]
  refine Finset.sum_congr rfl fun place hplace => ?_
  have hwithin : now < place + span := by
    have := (Finset.mem_Ico.mp hplace).1
    omega
  rw [Series.countAt_eq, Series.countAt_eq]
  exact congrArg (·.tally.count o) (h.figures hwithin)

/-- And its latencies leave the words in both or in neither. -/
theorem overflows_window : s.overflows r start stop = t.overflows r start stop := by
  have hsum : ∑ place ∈ Finset.Ico start stop, (s.seriesAt r 0).latencyAt place =
      ∑ place ∈ Finset.Ico start stop, (t.seriesAt r 0).latencyAt place := by
    refine Finset.sum_congr rfl fun place hplace => ?_
    have hwithin : now < place + span := by
      have := (Finset.mem_Ico.mp hplace).1
      omega
    rw [Series.latencyAt_eq, Series.latencyAt_eq]
    exact congrArg Figures.latency (h.figures hwithin)
  rw [Bool.eq_iff_iff, overflows_iff (h.settled.1 r 0).tidy hstop,
    overflows_iff (h.settled.2 r 0).tidy hstop, hsum]

end Window

end Alike
end StatStore
end Floodgate
