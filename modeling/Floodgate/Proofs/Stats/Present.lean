import Floodgate.Proofs.Stats.Merge
import Floodgate.Proofs.Stats.Totals

/-!
# What is counted in the slot of the present

A store is called at any times, in any order, and resources are evicted from it in between. However
it came to be what it is, its slots lie where they belong (`StatStore.tidy_after`). What is counted
from then on at one and the same time is all there in the slots of that time, beside what they had
before: a write drops older slots only. `StatStore.Books` says that and that nothing else has
changed, first of one call and then of all the calls that a function makes (`Booked.books`). So a
window that holds the start of that slot reports at least as much
(`StatStore.Tidy.counted_le_count_window`). A window between two starts of slots reports nothing,
however much is counted (`StatStore.Tidy.count_window_eq_zero`).
-/

set_option autoImplicit false

namespace Floodgate

/-- What happens to a store. -/
inductive StatEvent where
  | call (c : StatCall)
  | evictIdle (now idleMs : Nat)

/-- What a call counts whatever the store is like: the outcome of an increment. -/
def StatCall.gain? : StatCall → Option (Resource × Outcome)
  | .incr r o _ => some (r, o)
  | _ => none

theorem StatCall.gain?_le_count (s : StatStore) (c : StatCall) (r : Resource) (o : Outcome) :
    (if c.gain? = some (r, o) then 1 else 0) ≤ (c.gains s).count (r, o) := by
  cases c with
  | incr r' o' now => simp [gain?, gains, write?, SlotWrite.gain?, List.count_singleton]
  | _ => exact Nat.zero_le _

namespace StatStore

def event (s : StatStore) : StatEvent → StatStore
  | .call c => s.call c
  | .evictIdle now idleMs => s.evictIdle now idleMs

def after (s : StatStore) (events : List StatEvent) : StatStore := events.foldl event s

/-- The store after calls between which nothing is evicted. -/
def calls (s : StatStore) (cs : List StatCall) : StatStore := cs.foldl call s

variable {s s' : StatStore} {r : Resource} {now : Nat}

/-! ## One event -/

/-- Slots lie where they belong, whatever the resource. -/
def Tidy (s : StatStore) : Prop := ∀ r t, (s.seriesAt r t).Tidy s.grid.slotMs

theorem tidy_new (slotMs retained : Nat) : (StatStore.new slotMs retained).Tidy :=
  fun _ _ => Series.tidy_of_empty rfl

/-- How many requests of an outcome are counted for a resource in the slot at a place. -/
def counted (s : StatStore) (r : Resource) (place : Nat) (o : Outcome) : Nat :=
  (s.seriesAt r 0).countAt place o

/-- The slot of a resource at a place. -/
def slot? (s : StatStore) (r : Resource) (place : Nat) : Option Slot :=
  (s.seriesAt r 0).slots.get? place

/-- The same, or an empty slot if there is none. -/
def slotFor (s : StatStore) (r : Resource) (place : Nat) : Slot :=
  (s.slot? r place).getD (Slot.new place 0)

theorem counted_eq (s : StatStore) (r : Resource) (place : Nat) (o : Outcome) :
    s.counted r place o = (s.slotFor r place).tally.count o := by
  rw [counted, Series.countAt, slotFor, slot?]
  cases (s.seriesAt r 0).slots.get? place with
  | some slot => rfl
  | none => cases o <;> rfl

/-- What was counted at one time is all there in the slots of that time, beside what they had
before. All other slots are as they were, but that some have expired. -/
structure Books (now : Nat) (gains : List (Resource × Outcome)) (s s' : StatStore) : Prop where
  grid : s'.grid = s.grid
  tidy : s'.Tidy
  counted : ∀ r o, s'.counted r (s.grid.floor now) o =
    s.counted r (s.grid.floor now) o + gains.count (r, o)
  elsewhere : ∀ r place, place ≠ s.grid.floor now → s'.slot? r place = s.slot? r place ∨
    s'.slot? r place = none ∧ place + s.grid.retentionMs ≤ s.grid.floor now

theorem Books.trans {gains gains' : List (Resource × Outcome)} {s'' : StatStore}
    (h : Books now gains s s') (h' : Books now gains' s' s'') :
    Books now (gains ++ gains') s s'' where
  grid := h'.grid.trans h.grid
  tidy := h'.tidy
  counted r o := by
    rw [List.count_append, ← Nat.add_assoc, ← h.counted, ← h.grid, h'.counted]
  elsewhere r place hp := by
    have hlast := h'.elsewhere r place (h.grid ▸ hp)
    rw [h.grid] at hlast
    rcases hlast with hsame | hexpired
    · rw [hsame]
      exact h.elsewhere r place hp
    · exact .inr hexpired

/-- What a call does to the slots: it changes the slot that it writes, or it counts nothing and
leaves all slots alone. -/
theorem call_cases (s : StatStore) (c : StatCall) :
    (∃ w x f, c.write? s = some w ∧ s.SlotChange w c.note? x f ∧
      (c.latency? = none → ∀ slot, (f slot).latency = slot.latency) ∧
      ∀ r, (s.call c).get? r =
        if r = w.resource then some (x.updateSlot (s.grid.floor w.time) s.grid.retentionMs f)
        else s.get? r) ∨
    c.gains s = [] ∧ ∀ r t, ((s.call c).seriesAt r t).slots = (s.seriesAt r t).slots ∧
      ((s.call c).seriesAt r t).newest = (s.seriesAt r t).newest := by
  cases hw : c.write? s with
  | none => exact .inr ⟨by rw [StatCall.gains, hw]; rfl, slots_call_of_write?_eq_none hw⟩
  | some w =>
    by_cases hpresent : ∀ hd now, c = .observe hd now → s.series.handle? hd.key = some hd
    · obtain ⟨x, f, hchange⟩ := call_of_write? hw hpresent
      exact .inl ⟨w, x, f, rfl, hchange⟩
    · -- the handle is not that of a present series, and all of them are left alone
      push Not at hpresent
      obtain ⟨hd, now, rfl, habsent⟩ := hpresent
      obtain ⟨x, -, rfl⟩ := Option.map_eq_some_iff.mp hw
      refine .inr ⟨by rw [StatCall.gains, hw]; rfl, slots_observe_of_absent habsent now⟩

theorem slot?_seriesAt (s : StatStore) (r : Resource) (now place : Nat) :
    (s.seriesAt r now).slots.get? place = s.slot? r place := by
  rw [slot?, (s.slots_seriesAt r now 0).1]

namespace SlotChange

variable {w : SlotWrite} {note? : Option BreakerState} {x : Series} {f : Slot → Slot}

theorem tidy (hchange : s.SlotChange w note? x f) (h : s.Tidy) : x.Tidy s.grid.slotMs :=
  (h w.resource w.time).congr hchange.slots hchange.newest

/-- What is read off the slot before the change, unless that is its peak. -/
theorem reads (hchange : s.SlotChange w note? x f) {β : Type} (obs : Slot → β) {place : Nat}
    (hnew : ∀ n, obs (Slot.new place n) = obs (Slot.new place 0)) :
    obs (x.slotFor place) = obs (s.slotFor w.resource place) := by
  rw [Series.slotFor, hchange.slots, slot?_seriesAt, StatStore.slotFor]
  cases s.slot? w.resource place with
  | some slot => rfl
  | none => exact hnew x.inFlight

/-! The slots after the change. -/

section

variable (hchange : s.SlotChange w note? x f) (h : s.Tidy)
  (hview : ∀ r, s'.get? r =
    if r = w.resource then some (x.updateSlot (s.grid.floor w.time) s.grid.retentionMs f)
    else s.get? r)

include hchange h hview

theorem slot? (r : Resource) (place : Nat) :
    s'.slot? r place =
      if r = w.resource then
        if place = s.grid.floor w.time then some (f (x.slotFor place))
        else if x.newest < s.grid.floor w.time ∧ place + s.grid.retentionMs ≤ s.grid.floor w.time
          then none
        else s.slot? r place
      else s.slot? r place := by
  rw [StatStore.slot?, seriesAt_of_get? hview]
  split
  · rename_i e
    subst e
    rw [(hchange.tidy h).get?_updateSlot s.grid.retentionMs_pos hchange.start, hchange.slots,
      slot?_seriesAt]
    split
    · rename_i hat
      rw [hat]
    · rfl
  · rfl

/-- What is read off the slots of the time of the change. -/
theorem reads_after {β : Type} (obs : Slot → β) (r : Resource) :
    obs (s'.slotFor r (s.grid.floor w.time)) =
      if r = w.resource then obs (f (x.slotFor (s.grid.floor w.time)))
      else obs (s.slotFor r (s.grid.floor w.time)) := by
  rw [StatStore.slotFor, hchange.slot? h hview, if_pos rfl]
  split <;> rfl

end

end SlotChange

theorem count_gains_of_write? {c : StatCall} {w : SlotWrite} (hw : c.write? s = some w)
    (r : Resource) (o : Outcome) :
    (c.gains s).count (r, o) = if r = w.resource ∧ w.counted = some o then 1 else 0 := by
  rw [StatCall.gains, hw]
  cases hcounted : w.counted with
  | none => simp [SlotWrite.gain?, hcounted]
  | some o' => simp [SlotWrite.gain?, hcounted, List.count_singleton, @eq_comm _ w.resource r]

/-- **A call is booked in the slot of its time**, and nowhere else. -/
theorem Tidy.call (h : s.Tidy) {c : StatCall} (hc : c.MadeAt now) :
    Books now (c.gains s) s (s.call c) := by
  -- a call writes one slot of one resource, or nothing
  rcases s.call_cases c with ⟨w, x, f, hw, hchange, -, hview⟩ | ⟨hgains, hsame⟩
  · obtain rfl : w.time = now := StatCall.madeAt_iff.mp hc _ (c.time?_of_write? hw)
    refine ⟨s.grid_call c, fun r t => ?_, fun r o => ?_, fun r place hp => ?_⟩
    · rw [seriesAt_of_get? hview, s.grid_call]
      split
      · exact (hchange.tidy h).updateSlot s.grid.retentionMs_pos (s.grid.dvd_floor w.time)
          hchange.start
      · exact h r t
    · rw [count_gains_of_write? hw, counted_eq, counted_eq,
        hchange.reads_after h hview (·.tally.count o)]
      by_cases e : r = w.resource
      · subst e
        rw [if_pos rfl, hchange.count, hchange.reads (·.tally.count o) fun _ => rfl]
        simp
      · rw [if_neg e, if_neg fun hr => e hr.1, Nat.add_zero]
    · rw [hchange.slot? h hview, if_neg hp]
      split
      · split
        · rename_i hexpired
          exact .inr ⟨rfl, hexpired.2⟩
        · exact .inl rfl
      · exact .inl rfl
  · refine ⟨s.grid_call c, fun r t => ?_, fun r o => ?_, fun r place _ => .inl ?_⟩
    · rw [s.grid_call]
      exact (h r t).congr (hsame r t).1 (hsame r t).2
    · rw [hgains, List.count_nil, counted, counted, Series.countAt, Series.countAt, (hsame r 0).1]
      rfl
    · rw [slot?, slot?, (hsame r 0).1]

/-- What a call leaves alone in its slot it leaves alone everywhere at its time. -/
theorem Tidy.reads_call (h : s.Tidy) {c : StatCall} (hc : c.MadeAt now) {β : Type} {obs : Slot → β}
    (hnew : ∀ place n, obs (Slot.new place n) = obs (Slot.new place 0))
    (hkept : ∀ {w x f}, s.SlotChange w c.note? x f →
      (c.latency? = none → ∀ slot, (f slot).latency = slot.latency) →
      ∀ slot, obs (f slot) = obs slot) (r : Resource) :
    obs ((s.call c).slotFor r (s.grid.floor now)) = obs (s.slotFor r (s.grid.floor now)) := by
  rcases s.call_cases c with ⟨w, x, f, hw, hchange, hlatency, hview⟩ | ⟨-, hsame⟩
  · obtain rfl : w.time = now := StatCall.madeAt_iff.mp hc _ (c.time?_of_write? hw)
    rw [hchange.reads_after h hview obs]
    split
    · rename_i e
      subst e
      rw [hkept hchange hlatency, hchange.reads obs (hnew _)]
    · rfl
  · rw [slotFor, slot?, (hsame r 0).1]
    rfl

/-! ## Many events -/

theorem Tidy.event (h : s.Tidy) (event : StatEvent) : (s.event event).Tidy := by
  cases event with
  | call c =>
    have hc : c.MadeAt (c.time?.getD 0) :=
      StatCall.madeAt_iff.mpr fun t ht => by rw [ht, Option.getD_some]
    exact (h.call hc).tidy
  | evictIdle now idleMs =>
    intro r t
    rcases s.seriesAt_evictIdle_cases r now idleMs t with hsame | ⟨hgone, -⟩
    · exact hsame ▸ h r t
    · exact hgone ▸ Series.tidy_of_empty rfl

theorem grid_event (s : StatStore) (event : StatEvent) : (s.event event).grid = s.grid := by
  cases event with
  | call c => exact s.grid_call c
  | evictIdle now idleMs => exact s.grid_evictIdle now idleMs

/-- **Whatever has happened to a store, its slots lie where they belong.** -/
theorem tidy_after (events : List StatEvent) :
    ∀ {s : StatStore}, s.Tidy → (s.after events).Tidy := by
  induction events with
  | nil => exact fun h => h
  | cons event events ih => exact fun h => ih (h.event event)

theorem grid_after (events : List StatEvent) : ∀ s : StatStore, (s.after events).grid = s.grid := by
  induction events with
  | nil => exact fun _ => rfl
  | cons event events ih => exact fun s => (ih (s.event event)).trans (s.grid_event event)

theorem grid_calls (cs : List StatCall) : ∀ s : StatStore, (s.calls cs).grid = s.grid := by
  induction cs with
  | nil => exact fun _ => rfl
  | cons c cs ih => exact fun s => (ih (s.call c)).trans (s.grid_call c)

/-- **What calls count at one time is all there in the slot of that time.** -/
theorem Tidy.calls (cs : List StatCall) (htime : ∀ c ∈ cs, ∀ t, c.time? = some t → t = now) :
    ∀ {s : StatStore}, s.Tidy → (s.calls cs).Tidy ∧
      ∀ r o, s.counted r (s.grid.floor now) o + (cs.filterMap StatCall.gain?).count (r, o) ≤
        (s.calls cs).counted r (s.grid.floor now) o := by
  induction cs with
  | nil => exact fun h => ⟨h, fun _ _ => Nat.le_refl _⟩
  | cons c cs ih =>
    intro s h
    have hbooks := h.call (StatCall.madeAt_iff.mpr (htime c List.mem_cons_self))
    obtain ⟨htidy, hrest⟩ := ih (fun c' hc' => htime c' (List.mem_cons_of_mem _ hc')) hbooks.tidy
    refine ⟨htidy, fun r o => ?_⟩
    have hcount : ((c :: cs).filterMap StatCall.gain?).count (r, o) =
        (if c.gain? = some (r, o) then 1 else 0) + (cs.filterMap StatCall.gain?).count (r, o) := by
      cases hgain : c.gain? <;> simp [hgain, List.count_cons, Nat.add_comm]
    have hfirst := hbooks.counted r o
    have hgain := c.gain?_le_count s r o
    have hlast := hrest r o
    rw [hbooks.grid] at hlast
    have hrun : s.calls (c :: cs) = (s.call c).calls cs := rfl
    rw [hcount, hrun]
    omega

namespace Booked

variable {kind : StatCall → Prop} {gains : List (Resource × Outcome)}

theorem grid (h : Booked kind s s' gains) : s'.grid = s.grid := by
  induction h with
  | refl s => rfl
  | @call s s' c gains _ _ ih => exact ih.trans (s.grid_call c)

theorem tidy (h : Booked kind s s' gains) (ht : s.Tidy) : s'.Tidy := by
  induction h with
  | refl s => exact ht
  | @call s s' c gains _ _ ih => exact ih (ht.event (.call c))

/-- **What is booked at one time** is booked in the slots of that time, and nowhere else. -/
theorem books (h : Booked (·.MadeAt now) s s' gains) (ht : s.Tidy) : Books now gains s s' := by
  induction h with
  | refl s => exact ⟨rfl, ht, fun _ _ => rfl, fun _ _ _ => .inl rfl⟩
  | call hc _ ih => exact (ht.call hc).trans (ih (ht.call hc).tidy)

/-- Where no latencies are noted, those of the slots of that time are what they were. -/
theorem latency_eq (h : Booked (·.DecidesAt now) s s' gains) (ht : s.Tidy) (r : Resource) :
    (s'.slotFor r (s.grid.floor now)).latency = (s.slotFor r (s.grid.floor now)).latency := by
  induction h with
  | refl s => rfl
  | @call s s' c gains hc _ ih =>
    have hrest := ih (ht.call hc.made).tidy
    rw [s.grid_call] at hrest
    exact hrest.trans (ht.reads_call hc.made (fun _ _ => rfl)
      (fun _ hlatency => hlatency hc.latency?_eq_none) r)

/-- So are the states, where none are noted. -/
theorem state_eq (h : Booked (·.CountsAt now) s s' gains) (ht : s.Tidy) (r : Resource) :
    (s'.slotFor r (s.grid.floor now)).state = (s.slotFor r (s.grid.floor now)).state := by
  induction h with
  | refl s => rfl
  | @call s s' c gains hc _ ih =>
    have hrest := ih (ht.call hc.decides.made).tidy
    rw [s.grid_call] at hrest
    refine hrest.trans (ht.reads_call hc.decides.made (fun _ _ => rfl) (fun hchange _ slot => ?_) r)
    rw [hchange.state, hc.note?_eq_none, Option.none_or]

end Booked

/-! ## Windows -/

/-- A window of a resource is the merge of the slots that begin in it. -/
theorem isMergeOf_window {start stop : Nat} (h : (s.seriesAt r 0).Tidy s.grid.slotMs)
    (hstop : stop < Word.size) :
    (s.window r start stop).IsMergeOf start stop ((s.seriesAt r 0).within start stop) := by
  unfold window seriesAt at *
  cases hr : s.get? r with
  | some x =>
    rw [hr] at h
    exact h.isMergeOf_aggregate s.grid.slotMs_pos hstop
  | none => exact Window.isMergeOf_empty start stop

/-- A window that holds the start of a slot reports what is counted in that slot. -/
theorem Tidy.counted_le_count_window (h : s.Tidy) (r : Resource) {place start stop : Nat}
    (hstart : start ≤ place) (hplace : place < stop) (hstop : stop < Word.size) (o : Outcome) :
    s.counted r place o ≤ (s.window r start stop).tally.count o := by
  rw [count_window (h r 0) hstop]
  exact Finset.single_le_sum (f := fun place => s.counted r place o) (fun _ _ => Nat.zero_le _)
    (Finset.mem_Ico.mpr ⟨hstart, hplace⟩)

/-- A window that holds no start of a slot reports nothing. -/
theorem Tidy.count_window_eq_zero (h : s.Tidy) (r : Resource) {start stop : Nat}
    (hnone : ∀ place, start ≤ place → place < stop → ¬ s.grid.slotMs ∣ place)
    (hstop : stop < Word.size) (o : Outcome) : (s.window r start stop).tally.count o = 0 := by
  rw [count_window (h r 0) hstop]
  refine Finset.sum_eq_zero fun place hplace => ?_
  obtain ⟨hstart, hbefore⟩ := Finset.mem_Ico.mp hplace
  cases hslot : (s.seriesAt r 0).slots.get? place with
  | none => rw [Series.countAt, hslot]; rfl
  | some slot => exact absurd ((h r 0).aligned hslot) (hnone place hstart hbefore)

end StatStore
end Floodgate
