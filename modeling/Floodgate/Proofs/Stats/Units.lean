import Floodgate.Proofs.Handles
import Floodgate.Stats.Store

/-!
# Units of concurrency

A request in flight holds one unit of concurrency of its resource, and a handle of the series it
took the unit from. For the units nothing else in the store matters: slots come and go, series are
made at first use and evicted when idle. This file says of each operation what it does to the units
and to the handles of the series that have any.

Three relations between a store and a later one carry this. `SameUnits` is the common case and a
preorder; an eviction is one of its instances, because only series without units are evicted.
`TakesUnit` and `GivesUnit` are the two ends of a request, and `TakesUnit.gives` says that they
cancel out, whatever happens to the units of other resources in between.
-/

set_option autoImplicit false

namespace Floodgate

/-! ## One series -/

namespace Series

@[simp] theorem inFlight_touch (s : Series) (now : Nat) : (s.touch now).inFlight = s.inFlight := rfl

@[simp] theorem inFlight_acquire (s : Series) : s.acquire.inFlight = s.inFlight + 1 := rfl

@[simp] theorem inFlight_release (s : Series) : s.release.inFlight = s.inFlight - 1 := rfl

@[simp] theorem inFlight_expire (s : Series) (start retention : Nat) :
    (s.expire start retention).inFlight = s.inFlight := by
  unfold expire
  split <;> rfl

/-- Slots come and go without a unit being taken or given back. -/
@[simp] theorem inFlight_slotAt (s : Series) (start retention : Nat) :
    (s.slotAt start retention).2.inFlight = s.inFlight := by
  unfold slotAt
  split
  · rfl
  · dsimp only
    split
    · rw [inFlight_expire]
    · rfl

/-- So a write into a slot, whatever it writes, leaves the units alone. -/
@[simp] theorem inFlight_updateSlot (s : Series) (start retention : Nat) (f : Slot → Slot) :
    (s.updateSlot start retention f).inFlight = s.inFlight := by
  show (s.slotAt start retention).2.inFlight = s.inFlight
  exact s.inFlight_slotAt start retention

/-- A unit is granted while fewer are taken than the limit says, and without a limit always. -/
theorem acquire?_isSome (s : Series) (limit : Option Nat) :
    (s.acquire? limit).isSome = !limit.any (· ≤ s.inFlight) := by
  unfold acquire?
  split <;> simp_all

end Series

namespace StatStore

/-! ## The relations -/

/-- All units are where they were, and the series that have units have kept their handles. -/
structure SameUnits (s s' : StatStore) : Prop where
  inFlight : ∀ r, s'.inFlight r = s.inFlight r
  handle : ∀ {r h}, 0 < s.inFlight r → s.series.handle? r = some h → s'.series.handle? r = some h

/-- One unit of a resource has been taken, from the series of a handle. -/
structure TakesUnit (s s' : StatStore) (r : Resource) (h : Handle Resource) : Prop where
  inFlight : ∀ r', s'.inFlight r' = s.inFlight r' + if r' = r then 1 else 0
  handle : ∀ {r' h'}, 0 < s.inFlight r' → s.series.handle? r' = some h' →
    s'.series.handle? r' = some h'
  held : s'.series.handle? r = some h

/-- One unit of a resource has been given back, if one was taken. -/
structure GivesUnit (s s' : StatStore) (r : Resource) : Prop where
  inFlight : ∀ r', s'.inFlight r' = s.inFlight r' - if r' = r then 1 else 0
  handle : ∀ {r' h'}, 0 < s.inFlight r' → s.series.handle? r' = some h' →
    s'.series.handle? r' = some h'

variable {s s' s'' : StatStore} {r : Resource} {h : Handle Resource}

theorem SameUnits.refl (s : StatStore) : SameUnits s s := ⟨fun _ => rfl, fun _ hr => hr⟩

/-- Operations that move no unit may follow each other in any number. -/
theorem SameUnits.trans (h₁ : SameUnits s s') (h₂ : SameUnits s' s'') : SameUnits s s'' where
  inFlight r := (h₂.inFlight r).trans (h₁.inFlight r)
  handle hpos hr := h₂.handle (by rw [h₁.inFlight]; exact hpos) (h₁.handle hpos hr)

/-- A unit may be taken after any number of operations that move none, and the handle that was given
for it is the one that counts. -/
theorem SameUnits.takes (h₁ : SameUnits s s') (h₂ : TakesUnit s' s'' r h) :
    TakesUnit s s'' r h where
  inFlight r' := by rw [h₂.inFlight, h₁.inFlight]
  handle hpos hr := h₂.handle (by rw [h₁.inFlight]; exact hpos) (h₁.handle hpos hr)
  held := h₂.held

/-- After a unit has been taken there is one to give back. -/
theorem TakesUnit.pos (h₁ : TakesUnit s s' r h) : 0 < s'.inFlight r := by
  rw [h₁.inFlight, if_pos rfl]
  omega

/-- What happens after a unit was taken, and moves none, does not lose it: the series it was taken
from keeps its handle. -/
theorem TakesUnit.trans (h₁ : TakesUnit s s' r h) (h₂ : SameUnits s' s'') :
    TakesUnit s s'' r h where
  inFlight r' := by rw [h₂.inFlight, h₁.inFlight]
  handle hpos hr := h₂.handle (by rw [h₁.inFlight]; omega) (h₁.handle hpos hr)
  held := h₂.handle h₁.pos h₁.held

/-- A unit that is given back has as good as not been taken. This is what makes a request that a
breaker turns away harmless: the limiter's unit is back before anyone else is asked. -/
theorem TakesUnit.gives (h₁ : TakesUnit s s' r h) (h₂ : GivesUnit s' s'' r) : SameUnits s s'' where
  inFlight r' := by
    rw [h₂.inFlight, h₁.inFlight]
    split <;> omega
  handle hpos hr := h₂.handle (by rw [h₁.inFlight]; omega) (h₁.handle hpos hr)

/-! ## What the operations do -/

/-- A change of one series that leaves its units alone leaves all units alone, and the handles too,
since it replaces no series. -/
theorem sameUnits_modify (s : StatStore) (h : Handle Resource) {f : Series → Series}
    (hf : ∀ series, (f series).inFlight = series.inFlight) : SameUnits s (s.modify h f) where
  inFlight r := by
    simp only [inFlight, get?, modify, Roster.current?_modify]
    split
    · cases s.series.current? r <;> simp [hf]
    · rfl
  handle _ hr := by simpa [modify] using hr

theorem sameUnits_updateSlot (s : StatStore) (h : Handle Resource) (now : Nat) (f : Slot → Slot) :
    SameUnits s (s.updateSlot h now f) :=
  s.sameUnits_modify h fun series => series.inFlight_updateSlot _ _ f

/-- After a series has been made sure of, its resource has it, and the handle names it. -/
theorem handle?_track (s : StatStore) (r : Resource) (now : Nat) :
    (s.track r now).2.series.handle? r = some (s.track r now).1 := by
  cases hr : s.series.handle? r with
  | some h => simp [track, hr]
  | none => simp [track, hr, Roster.handle?_install]

/-- The handle of a series says which resource the series is of. -/
theorem key_track (s : StatStore) (r : Resource) (now : Nat) : (s.track r now).1.key = r :=
  Roster.key_of_handle? (s.handle?_track r now)

/-- A series that is made now has no units, and neither had its resource. So making it moves none,
and where the resource had units it had a series already and none is made. -/
theorem sameUnits_track (s : StatStore) (r : Resource) (now : Nat) :
    SameUnits s (s.track r now).2 := by
  cases hr : s.series.handle? r with
  | some h =>
    rw [show s.track r now = (h, s) by simp [track, hr]]
    exact SameUnits.refl s
  | none =>
    have hnone : s.series.current? r = none := (s.series.handle?_eq_none_iff r).mp hr
    have hzero : s.inFlight r = 0 := by simp [inFlight, get?, hnone]
    refine ⟨fun r' => ?_, fun {r' h'} hpos hr' => ?_⟩
    · by_cases e : r' = r
      · subst e
        rw [hzero]
        simp [track, hr, inFlight, get?, Roster.current?_install, Series.new]
      · simp [track, hr, inFlight, get?, Roster.current?_install, e]
    · have e : r' ≠ r := by
        rintro rfl
        omega
      simpa [track, hr, Roster.handle?_install, e] using hr'

/-- The store in which a resource has a series, and has just been used. -/
def used (s : StatStore) (r : Resource) (now : Nat) : StatStore :=
  (s.track r now).2.modify (s.track r now).1 (·.touch now)

/-- The same of the store as the operations find it that also count as a use. -/
theorem sameUnits_used (s : StatStore) (r : Resource) (now : Nat) : SameUnits s (s.used r now) :=
  (s.sameUnits_track r now).trans (sameUnits_modify _ _ (·.inFlight_touch now))

theorem handle?_used (s : StatStore) (r : Resource) (now : Nat) :
    (s.used r now).series.handle? r = some (s.track r now).1 := by
  rw [used, modify, Roster.handle?_modify]
  exact s.handle?_track r now

theorem sameUnits_incr (s : StatStore) (r : Resource) (o : Outcome) (now : Nat) :
    SameUnits s (s.incr r o now) :=
  (s.sameUnits_used r now).trans ((s.used r now).sameUnits_updateSlot _ now _)

theorem sameUnits_tryStart (s : StatStore) (r : Resource) (budget now : Nat) :
    SameUnits s (s.tryStart r budget now).2 :=
  (s.sameUnits_used r now).trans ((s.used r now).sameUnits_updateSlot _ now _)

theorem sameUnits_observe (s : StatStore) (h : Handle Resource) (now : Nat) :
    SameUnits s (s.observe h now) := sameUnits_updateSlot _ _ _ _

theorem sameUnits_recordLatency (s : StatStore) (r : Resource) (ms now : Nat) :
    SameUnits s (s.recordLatency r ms now) :=
  (s.sameUnits_track r now).trans (sameUnits_updateSlot _ _ _ _)

theorem sameUnits_recordState (s : StatStore) (r : Resource) (state : BreakerState) (now : Nat) :
    SameUnits s (s.recordState r state now) :=
  (s.sameUnits_track r now).trans (sameUnits_updateSlot _ _ _ _)

/-- **An eviction takes nothing away from a request in flight**, whatever its arguments are. A
series with units is kept, however long it has been idle, and a series without any has none to lose.
-/
theorem sameUnits_evictIdle (s : StatStore) (now idleMs : Nat) :
    SameUnits s (s.evictIdle now idleMs) where
  inFlight r := by
    simp only [inFlight, get?, evictIdle, Roster.current?_retain]
    cases s.series.current? r with
    | none => rfl
    | some series =>
      -- a series without units may go or stay: it counts for nothing either way
      by_cases hpos : 0 < series.inFlight
      · simp [isKept, hpos, Option.filter]
      · have hzero : series.inFlight = 0 := by omega
        cases hk : isKept now idleMs series <;> simp [hk, hzero, Option.filter]
  handle {r h} hpos hr := by
    cases hc : s.series.current? r with
    | none => simp [inFlight, get?, hc] at hpos
    | some series =>
      have hkept : isKept now idleMs series = true := by
        have : 0 < series.inFlight := by simpa [inFlight, get?, hc] using hpos
        simp [isKept, this]
      rw [evictIdle, Roster.handle?_retain hc hkept]
      exact hr

/-! ## Taking and giving back -/

/-- Taking a unit through the handle of the present series adds one to the resource of that series
and to no other. -/
theorem takesUnit_modify (hr : s.series.handle? r = some h) {f : Series → Series}
    (hf : ∀ series, (f series).inFlight = series.inFlight + 1) :
    TakesUnit s (s.modify h f) r h where
  inFlight r' := by
    simp only [inFlight, get?, modify, Roster.current?_modify_of_handle? hr]
    by_cases e : r' = r
    · subst e
      obtain ⟨series, hc, -⟩ := Option.map_eq_some_iff.mp hr
      simp [hc, hf]
    · simp [e]
  handle _ hr' := by simpa [modify] using hr'
  held := by simpa [modify] using hr

/-- Giving one back through the handle of the present series takes one away there, and nothing if
there is none. -/
theorem givesUnit_release (hr : s.series.handle? r = some h) : GivesUnit s (s.release h) r where
  inFlight r' := by
    simp only [inFlight, get?, release, modify, Roster.current?_modify_of_handle? hr]
    by_cases e : r' = r
    · subst e
      obtain ⟨series, hc, -⟩ := Option.map_eq_some_iff.mp hr
      simp [hc]
    · simp [e]
  handle _ hr' := by simpa [release, modify] using hr'

theorem takesUnit_acquireUnbounded (s : StatStore) (r : Resource) (now : Nat) :
    TakesUnit s (s.acquireUnbounded r now).2 r (s.acquireUnbounded r now).1 :=
  (s.sameUnits_track r now).takes (takesUnit_modify (s.handle?_track r now) fun _ => rfl)

/-- A unit is granted as long as fewer units are taken than the limit says. Either way the series
has been made and touched, since it is asked before the answer is known. -/
theorem acquire_eq (s : StatStore) (r : Resource) (limit : Option Nat) (now : Nat) :
    s.acquire r limit now =
      if limit.any (· ≤ s.inFlight r) then (none, s.used r now)
      else (some (s.track r now).1, (s.used r now).modify (s.track r now).1 (·.acquire)) := by
  have hheld : (s.used r now).held? (s.track r now).1 = (s.used r now).get? r :=
    Roster.get?_of_handle? (s.handle?_used r now)
  have hsome : ((s.used r now).get? r).isSome := by
    rw [get?, ← Roster.handle?_isSome, handle?_used]
    rfl
  obtain ⟨series, hs⟩ := Option.isSome_iff_exists.mp hsome
  have hin : s.inFlight r = series.inFlight := by
    rw [← (s.sameUnits_used r now).inFlight r, inFlight, hs]
    rfl
  have hany : (((s.used r now).held? (s.track r now).1).any fun series =>
      (series.acquire? limit).isSome) = !limit.any (· ≤ s.inFlight r) := by
    rw [hheld, hs, hin]
    exact series.acquire?_isSome limit
  show (if ((s.used r now).held? (s.track r now).1).any fun series =>
      (series.acquire? limit).isSome then
    (some (s.track r now).1, (s.used r now).modify (s.track r now).1 (·.acquire))
    else (none, s.used r now)) = _
  rw [hany]
  cases limit.any (· ≤ s.inFlight r) <;> rfl

/-- A grant comes with the handle of the series that the unit was taken from. -/
theorem takesUnit_acquire {limit : Option Nat} {now : Nat}
    (ha : (s.acquire r limit now).1 = some h) : TakesUnit s (s.acquire r limit now).2 r h := by
  rw [acquire_eq] at ha ⊢
  split at ha
  · cases ha
  · cases ha
    rename_i hn
    rw [if_neg hn]
    exact (s.sameUnits_used r now).takes
      (takesUnit_modify (s.handle?_used r now) Series.inFlight_acquire)

/-- A refusal takes nothing. -/
theorem sameUnits_acquire {limit : Option Nat} {now : Nat}
    (ha : (s.acquire r limit now).1 = none) : SameUnits s (s.acquire r limit now).2 := by
  rw [acquire_eq] at ha ⊢
  split at ha
  · rename_i hn
    rw [if_pos hn]
    exact s.sameUnits_used r now
  · cases ha

/-- So a request is refused exactly if the limit has been reached, whether or not there is a series
yet. -/
theorem acquire_eq_none_iff (s : StatStore) (r : Resource) (limit : Option Nat) (now : Nat) :
    (s.acquire r limit now).1 = none ↔ limit.any (· ≤ s.inFlight r) = true := by
  rw [acquire_eq]
  split <;> simp_all

end StatStore
end Floodgate
