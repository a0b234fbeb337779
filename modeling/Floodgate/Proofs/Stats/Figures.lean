import Floodgate.Proofs.Stats.Holders
import Floodgate.Proofs.Stats.WordRange
import Floodgate.Stats.Cursor
import Floodgate.Stats.Report

/-!
# Figures that fit together

The figures of a slot are written one by one, and yet they fit together: no more requests failed
than completed, and the latencies add up to no more than the greatest one for each completed request.
Where requests are let through up to a ceiling, the peak of a slot is no higher. `Slot.Sound` says
so, and `Series.Sound` of all slots of a series, with the requests in flight, which are the peak that
the next slot begins with.

Most operations keep this one by one (`StatStore.Sound`). An error or a latency by itself does not;
it is counted together with the completed request that it belongs to, and all that is counted for
one outcome is one write (`Slot.Sound.withOutcome`).

What is sound of slots is sound of windows, for sums and maxima keep it: a window is merged of slots
of one series, however they are found. `StatStore.HasWindow` lists the ways to ask for a window.
-/

set_option autoImplicit false

namespace Floodgate

/-! ## One slot -/

namespace Slot

/-- The figures of a slot fit together, and its peak is not above the ceiling, if there is one. The
latencies are added up as words, but a sum that is cut off is only smaller. -/
structure Sound (ceiling? : Option Nat) (slot : Slot) : Prop where
  errors_le : slot.tally.errors ≤ slot.tally.completed
  latency_le : slot.totalLatency ≤ slot.tally.completed * slot.maxLatency
  peak_le : ∀ c ∈ ceiling?, slot.peak ≤ c

/-- The outcome of a request: one more completed, perhaps failed, and its latency. The operations
that write these one after another leave a slot in between that is not sound. -/
def withOutcome (slot : Slot) (failed : Bool) (ms : Nat) : Slot :=
  (if failed then (slot.incr .completed).incr .error else slot.incr .completed).recordLatency ms

variable {ceiling? : Option Nat} {slot : Slot}

/-- A slot begins empty, with the requests that are in flight as its peak. -/
theorem sound_new (start : Nat) {inFlight : Nat} (h : ∀ c ∈ ceiling?, inFlight ≤ c) :
    (Slot.new start inFlight).Sound ceiling? := ⟨Nat.le_refl 0, Nat.zero_le _, h⟩

/-- One more counted keeps the figures in line, unless it is an error by itself. -/
theorem Sound.incr (h : slot.Sound ceiling?) {o : Outcome} (ho : o ≠ .error) :
    (slot.incr o).Sound ceiling? := by
  cases o with
  | error => exact absurd rfl ho
  | completed =>
    exact ⟨Nat.le_succ_of_le h.errors_le,
      h.latency_le.trans (Nat.mul_le_mul_right _ (Nat.le_succ _)), h.peak_le⟩
  | _ => exact ⟨h.errors_le, h.latency_le, h.peak_le⟩

theorem Sound.tryStart (h : slot.Sound ceiling?) (budget : Nat) :
    (slot.tryStart budget).2.Sound ceiling? := by
  unfold Slot.tryStart
  split
  · exact h.incr nofun
  · exact h

/-- The peak moves up to the requests in flight, which are not above the ceiling. -/
theorem Sound.observe (h : slot.Sound ceiling?) {inFlight : Nat} (hn : ∀ c ∈ ceiling?, inFlight ≤ c) :
    (slot.observe inFlight).Sound ceiling? :=
  ⟨h.errors_le, h.latency_le, fun c hc => Nat.max_le.mpr ⟨h.peak_le c hc, hn c hc⟩⟩

theorem Sound.recordState (h : slot.Sound ceiling?) (state : BreakerState) :
    (slot.recordState state).Sound ceiling? := ⟨h.errors_le, h.latency_le, h.peak_le⟩

/-- A latency more is no more than the greatest one more. The sum may be cut off at a word, which
only makes the left side smaller. -/
theorem addWrapping_le_succ_mul {total completed greatest : Nat}
    (h : total ≤ completed * greatest) (ms : Nat) :
    Word.addWrapping total ms ≤ (completed + 1) * max greatest ms :=
  calc Word.addWrapping total ms ≤ total + ms := Nat.mod_le _ _
    _ ≤ completed * max greatest ms + max greatest ms :=
      Nat.add_le_add (h.trans (Nat.mul_le_mul_left _ (Nat.le_max_left _ _))) (Nat.le_max_right _ _)
    _ = (completed + 1) * max greatest ms := (Nat.succ_mul _ _).symm

/-- **An outcome keeps the figures of a slot in line**: an error comes with a completed request, and
so does a latency. -/
theorem Sound.withOutcome (h : slot.Sound ceiling?) (failed : Bool) (ms : Nat) :
    (slot.withOutcome failed ms).Sound ceiling? := by
  have hlatency := addWrapping_le_succ_mul h.latency_le ms
  cases failed with
  | false => exact ⟨Nat.le_succ_of_le h.errors_le, hlatency, h.peak_le⟩
  | true => exact ⟨Nat.succ_le_succ h.errors_le, hlatency, h.peak_le⟩

/-- The outcome is written into the slot where it is, and the slot keeps its start. -/
theorem start_withOutcome (slot : Slot) (failed : Bool) (ms : Nat) :
    (slot.withOutcome failed ms).start = slot.start := by cases failed <;> rfl

end Slot

/-! ## One window -/

namespace Window

/-- The figures of a window fit together. -/
structure Sound (ceiling? : Option Nat) (w : Window) : Prop where
  errors_le : w.tally.errors ≤ w.tally.completed
  latency_le : w.totalLatency ≤ w.tally.completed * w.maxLatency
  peak_le : ∀ c ∈ ceiling?, w.peak ≤ c

variable {ceiling? : Option Nat} {w : Window}

theorem sound_empty (start stop : Nat) : (Window.empty start stop).Sound ceiling? :=
  ⟨Nat.le_refl 0, Nat.zero_le _, fun _ _ => Nat.zero_le _⟩

/-- **What is sound of a window and a slot is sound of the two merged.** Counts and latencies add up
on either side of the bound, and the greatest latency of both is at least that of each. -/
theorem Sound.merge (h : w.Sound ceiling?) {slot : Slot} (hslot : slot.Sound ceiling?) :
    (w.merge slot).Sound ceiling? where
  errors_le := Nat.add_le_add h.errors_le hslot.errors_le
  latency_le :=
    calc Word.addWrapping w.totalLatency slot.totalLatency
        ≤ w.totalLatency + slot.totalLatency := Nat.mod_le _ _
      _ ≤ w.tally.completed * max w.maxLatency slot.maxLatency +
            slot.tally.completed * max w.maxLatency slot.maxLatency :=
          Nat.add_le_add (h.latency_le.trans (Nat.mul_le_mul_left _ (Nat.le_max_left _ _)))
            (hslot.latency_le.trans (Nat.mul_le_mul_left _ (Nat.le_max_right _ _)))
      _ = (w.tally.completed + slot.tally.completed) * max w.maxLatency slot.maxLatency :=
          (Nat.add_mul _ _ _).symm
  peak_le c hc := Nat.max_le.mpr ⟨h.peak_le c hc, hslot.peak_le c hc⟩

/-- A window merged of sound slots is sound, in whatever order they come. -/
theorem Sound.mergeAll {slots : List Slot} (hslots : ∀ slot ∈ slots, slot.Sound ceiling?) :
    ∀ {w : Window}, w.Sound ceiling? → (w.mergeAll slots).Sound ceiling? := by
  induction slots with
  | nil => exact fun h => h
  | cons slot slots ih =>
    intro w h
    exact ih (fun slot' h' => hslots slot' (List.mem_cons_of_mem _ h'))
      (h.merge (hslots slot List.mem_cons_self))

/-- The average is the total by the number of completed requests, and by the bound on the total no
more than the greatest latency. Where nothing completed both are zero. -/
theorem Sound.average_le (h : w.Sound ceiling?) : w.averageLatency ≤ w.maxLatency :=
  Nat.div_le_of_le_mul h.latency_le

end Window

/-! ## One series -/

namespace Series

/-- The figures of all slots fit together. The next slot begins with the requests in flight, so these
are not above the ceiling either. -/
structure Sound (slotMs : Nat) (ceiling? : Option Nat) (x : Series) : Prop where
  tidy : x.Tidy slotMs
  slots : ∀ {place slot}, x.slots.get? place = some slot → slot.Sound ceiling?
  inFlight_le : ∀ c ∈ ceiling?, x.inFlight ≤ c

variable {slotMs start retention : Nat} {ceiling? : Option Nat} {x : Series} {f : Slot → Slot}

theorem sound_new (slotMs now : Nat) (ceiling? : Option Nat) : (Series.new now).Sound slotMs ceiling? where
  tidy := tidy_of_empty rfl
  slots h := by cases (show none = some _ from h)
  inFlight_le _ _ := Nat.zero_le _

theorem Sound.touch (h : x.Sound slotMs ceiling?) (now : Nat) :
    (x.touch now).Sound slotMs ceiling? := ⟨h.tidy.congr rfl rfl, h.slots, h.inFlight_le⟩

theorem Sound.acquire (h : x.Sound slotMs ceiling?) (hroom : ∀ c ∈ ceiling?, x.inFlight < c) :
    x.acquire.Sound slotMs ceiling? := ⟨h.tidy.congr rfl rfl, h.slots, hroom⟩

theorem Sound.release (h : x.Sound slotMs ceiling?) : x.release.Sound slotMs ceiling? :=
  ⟨h.tidy.congr rfl rfl, h.slots, fun c hc => (Nat.sub_le _ _).trans (h.inFlight_le c hc)⟩

/-- The slot that a call writes to is sound, whether it was there or begins with this call. -/
theorem Sound.slotFor (h : x.Sound slotMs ceiling?) (start : Nat) :
    (x.slotFor start).Sound ceiling? := by
  cases hslot : x.slots.get? start with
  | some slot => exact (slotFor_of_get? hslot).symm ▸ h.slots hslot
  | none =>
    rw [Series.slotFor, hslot]
    exact Slot.sound_new start h.inFlight_le

/-- A change that keeps one slot sound keeps the series sound. Slots that expire on the way only
make it smaller. -/
theorem Sound.updateSlot (h : x.Sound slotMs ceiling?) (hret : 0 < retention) (hstart : slotMs ∣ start)
    (hf : ∀ slot, (f slot).start = slot.start)
    (hsound : ∀ slot, slot.Sound ceiling? → (f slot).Sound ceiling?) :
    (x.updateSlot start retention f).Sound slotMs ceiling? where
  tidy := h.tidy.updateSlot hret hstart hf
  slots {place slot} hslot := by
    rw [h.tidy.get?_updateSlot hret hf] at hslot
    split at hslot
    · cases hslot
      exact hsound _ (h.slotFor start)
    · split at hslot
      · cases hslot
      · exact h.slots hslot
  inFlight_le c hc := by
    rw [inFlight_updateSlot]
    exact h.inFlight_le c hc

/-- Whichever way the slots of a window are found, they are slots of the series. A wide window looks
through all slots and a narrow one asks for each place. -/
theorem exists_of_mem_slotsIn {start stop slotMs : Nat} {slot : Slot}
    (h : slot ∈ x.slotsIn start stop slotMs) : ∃ place, x.slots.get? place = some slot := by
  unfold slotsIn at h
  dsimp only at h
  split at h
  · rw [lookUp_eq_filterMap_askedPlaces] at h
    obtain ⟨place, -, hslot⟩ := List.mem_filterMap.mp h
    exact ⟨place, hslot⟩
  · obtain ⟨⟨place, _⟩, he, rfl⟩ := List.mem_map.mp h
    have hpicked := (Table.mem_entries_iff _ _ _).mp he
    rw [Table.get?_filter] at hpicked
    exact ⟨place, (Option.filter_eq_some_iff.mp hpicked).1⟩

/-- Every window of a sound series is sound, however wide and wherever it lies. -/
theorem Sound.aggregate (h : x.Sound slotMs ceiling?) (start stop stepMs : Nat) :
    (x.aggregate start stop stepMs).Sound ceiling? := by
  refine Window.Sound.mergeAll (fun slot hslot => ?_) (Window.sound_empty start stop)
  obtain ⟨place, hplace⟩ := exists_of_mem_slotsIn hslot
  exact h.slots hplace

end Series

/-! ## The store -/

namespace StatStore

/-- The figures of all series fit together, each under the ceiling of its resource. Series that were
evicted count too: a handle may still read them. -/
def Sound (ceiling? : Resource → Option Nat) (s : StatStore) : Prop :=
  s.Every fun r x => x.Sound s.grid.slotMs (ceiling? r)

variable {ceiling? : Resource → Option Nat} {s : StatStore} {r : Resource} {hd : Handle Resource}

theorem sound_new (slotMs retained : Nat) : (StatStore.new slotMs retained).Sound ceiling? :=
  every_new slotMs retained

namespace Sound

/-- A series that is made for a resource is empty, and so it is sound under any ceiling. -/
theorem track (hs : s.Sound ceiling?) (r : Resource) (now : Nat) :
    (s.track r now).2.Sound ceiling? := by
  have hmade := Every.track hs (Series.sound_new s.grid.slotMs now (ceiling? r))
  rw [← s.grid_track r now] at hmade
  exact hmade

theorem modify (hs : s.Sound ceiling?) {f : Series → Series}
    (hf : ∀ x, s.held? hd = some x → x.Sound s.grid.slotMs (ceiling? hd.key) →
      (f x).Sound s.grid.slotMs (ceiling? hd.key)) : (s.modify hd f).Sound ceiling? :=
  Every.modify hs hf

theorem updateSlot (hs : s.Sound ceiling?) (now : Nat) {f : Slot → Slot}
    (hstart : ∀ slot, (f slot).start = slot.start)
    (hf : ∀ slot, slot.Sound (ceiling? hd.key) → (f slot).Sound (ceiling? hd.key)) :
    (s.updateSlot hd now f).Sound ceiling? :=
  hs.modify fun _ _ hx =>
    hx.updateSlot s.grid.retentionMs_pos (s.grid.dvd_floor now) hstart hf

theorem used (hs : s.Sound ceiling?) (r : Resource) (now : Nat) : (s.used r now).Sound ceiling? :=
  (hs.track r now).modify fun _ _ hx => hx.touch now

theorem incr (hs : s.Sound ceiling?) (r : Resource) (o : Outcome) (ho : o ≠ .error) (now : Nat) :
    (s.incr r o now).Sound ceiling? :=
  (hs.used r now).updateSlot now (fun _ => rfl) fun _ hslot => hslot.incr ho

theorem tryStart (hs : s.Sound ceiling?) (r : Resource) (budget now : Nat) :
    (s.tryStart r budget now).2.Sound ceiling? :=
  (hs.used r now).updateSlot now (·.start_tryStart budget) fun _ hslot => hslot.tryStart budget

/-- A unit is granted only below the limit, and the limit is not above the ceiling, so the requests
in flight do not get above it. -/
theorem acquire (hs : s.Sound ceiling?) (r : Resource) {limit : Option Nat} (now : Nat)
    (hlimit : ∀ c ∈ ceiling? r, limit.any (· ≤ c) = true) :
    (s.acquire r limit now).2.Sound ceiling? := by
  rw [acquire_eq]
  split
  · exact hs.used r now
  · rename_i hroom
    refine (hs.used r now).modify fun x hx hsound => hsound.acquire fun c hc => ?_
    rw [key_track] at hc
    obtain ⟨n, rfl, hle⟩ : ∃ n, limit = some n ∧ n ≤ c := by
      simpa [Option.any_eq_true] using hlimit c hc
    have hheld : (s.used r now).get? r = some x :=
      (Roster.get?_of_handle? (s.handle?_used r now)).symm.trans hx
    -- what was compared with the limit is what the series has in flight
    have hin : s.inFlight r = x.inFlight := by
      rw [← (s.sameUnits_used r now).inFlight r, inFlight, hheld]
      rfl
    have hbelow : s.inFlight r < n := by simpa using hroom
    omega

/-- A resource where units are taken without a limit must have no ceiling. -/
theorem acquireUnbounded (hs : s.Sound ceiling?) (r : Resource) (now : Nat)
    (hnone : ceiling? r = none) : (s.acquireUnbounded r now).2.Sound ceiling? := by
  show ((s.track r now).2.modify (s.track r now).1 fun x => (x.touch now).acquire).Sound ceiling?
  refine (hs.track r now).modify fun x _ hx => (hx.touch now).acquire fun c hc => ?_
  rw [key_track, hnone] at hc
  cases hc

theorem release (hs : s.Sound ceiling?) (hd : Handle Resource) : (s.release hd).Sound ceiling? :=
  hs.modify fun _ _ hx => hx.release

theorem observe (hs : s.Sound ceiling?) (hd : Handle Resource) (now : Nat) :
    (s.observe hd now).Sound ceiling? := by
  refine hs.modify fun x hheld hx => ?_
  rw [hheld]
  exact hx.updateSlot s.grid.retentionMs_pos (s.grid.dvd_floor now) (·.start_observe _)
    fun _ hslot => hslot.observe hx.inFlight_le

theorem recordState (hs : s.Sound ceiling?) (r : Resource) (state : BreakerState) (now : Nat) :
    (s.recordState r state now).Sound ceiling? :=
  (hs.track r now).updateSlot now (·.start_recordState state) fun _ hslot => hslot.recordState state

theorem evictIdle (hs : s.Sound ceiling?) (now idleMs : Nat) :
    (s.evictIdle now idleMs).Sound ceiling? := Every.evictIdle hs now idleMs

end Sound

/-! ## Windows -/

/-- The windows that a store shows of a resource: one of any range, those in succession, the next one
of a cursor that was made some time ago and whose series may have been evicted since, and the one in
a report. -/
inductive HasWindow (s : StatStore) (r : Resource) : Window → Prop where
  | window (start stop : Nat) : HasWindow s r (s.window r start stop)
  | windows {start stop slots : Nat} {w : Window} (h : w ∈ s.windows r start stop slots) :
      HasWindow s r w
  | next {c c' : Cursor} {w : Window} (hseries : ∀ h ∈ c.series, h.key = r)
      (h : c.next? s = some (w, c')) : HasWindow s r w
  | report {now : Nat} {w : Window} (h : (r, w) ∈ (s.report now).resources) : HasWindow s r w

/-- Each window of a cursor is read from the series that the cursor was made for, and from nothing
else. -/
theorem exists_of_mem_toList {c : Cursor} {w : Window} (h : w ∈ c.toList s) :
    ∃ start stop, w = s.windowOf (c.series.bind s.held?) start stop := by
  -- each window is the next one of the cursor that the window before has left behind
  induction c using Cursor.toList.induct with
  | case1 c stop hnext ih =>
    rw [Cursor.toList] at h
    split at h
    · rename_i stop' hnext'
      rw [hnext] at hnext'
      cases hnext'
      rcases List.mem_cons.mp h with rfl | h
      · exact ⟨_, _, rfl⟩
      · exact ih h
    · cases h
  | case2 c hnone =>
    rw [Cursor.toList] at h
    split at h
    · rename_i hnext
      rw [hnone] at hnext
      cases hnext
    · cases h

/-- What a store shows of a resource is read from a series that the resource has or had, if from
any. The four ways to ask come down to one way of reading. -/
theorem HasWindow.exists_series {w : Window} (h : s.HasWindow r w) :
    ∃ (hd? : Option (Handle Resource)) (start stop : Nat),
      (∀ hd ∈ hd?, hd.key = r) ∧ w = s.windowOf (hd?.bind s.held?) start stop := by
  have hpresent : ∀ hd ∈ s.series.handle? r, hd.key = r :=
    fun hd hh => Roster.key_of_handle? hh
  -- a window of the present is one through the handle of the present series, if there is one
  have hwindow : ∀ start stop, s.window r start stop =
      s.windowOf ((s.series.handle? r).bind s.held?) start stop := by
    intro start stop
    rw [StatStore.window]
    cases hr : s.series.handle? r with
    | none =>
      have hnone : s.get? r = none := (s.series.handle?_eq_none_iff r).mp hr
      rw [hnone]
      rfl
    | some hd => exact congrArg (s.windowOf · start stop) (Roster.get?_of_handle? hr).symm
  cases h with
  | window start stop => exact ⟨_, start, stop, hpresent, hwindow start stop⟩
  | @windows start stop slots _ h =>
    obtain ⟨first, last, rfl⟩ := exists_of_mem_toList h
    refine ⟨_, first, last, ?_, rfl⟩
    unfold cursor
    split
    · exact fun _ hh => by cases hh
    · exact hpresent
  | @next c c' _ hseries h =>
    obtain ⟨stop, -, e⟩ := Option.map_eq_some_iff.mp h
    cases e
    exact ⟨c.series, c.next, stop, hseries, rfl⟩
  | @report now _ h =>
    obtain ⟨_, -, e⟩ := List.mem_map.mp h
    cases e
    exact ⟨_, _, _, hpresent, hwindow _ _⟩

/-- **The figures of every window fit together**, if those of the store do, whichever way the window
is asked for. -/
theorem Sound.hasWindow (hs : s.Sound ceiling?) {w : Window} (h : s.HasWindow r w) :
    w.Sound (ceiling? r) := by
  obtain ⟨hd?, start, stop, hkey, rfl⟩ := h.exists_series
  cases hx : hd?.bind s.held? with
  | none => exact Window.sound_empty start stop
  | some x =>
    obtain ⟨hd, hd_mem, hheld⟩ := Option.bind_eq_some_iff.mp hx
    have hsound : x.Sound s.grid.slotMs (ceiling? r) := hkey hd hd_mem ▸ hs hd x hheld
    exact hsound.aggregate start stop s.grid.slotMs

end StatStore
end Floodgate
