import Floodgate.Proofs.Stats.Present

/-!
# The state that was seen last

The state of a breaker is noted in the slots of its resource, and it can be seen there later. A slot
shows what was noted in it last (`Series.Shows`), as long as it has not been dropped in between: a
late note may bring a slot into being again, but only behind the retention span, where nothing is
said of it. So the notes may come in any order of time.

A window shows what its latest slot does that shows anything. If the notes come in the order of time,
that is the slot of the last note in the window, and the window shows what was seen last in it
(`Series.Shows.state?_of_isMergeOf`). Otherwise the last note may lie in an earlier slot.
-/

set_option autoImplicit false

namespace Floodgate

/-! ## Sightings -/

/-- A state that a breaker was seen in. -/
structure Sighting where
  time : Nat
  state : BreakerState
  deriving DecidableEq, Repr

/-- The state that was seen last at a time of a kind. Last is meant in the order of the list, which
need not be that of time. -/
def lastSeen (p : Nat → Bool) (seen : List Sighting) : Option BreakerState :=
  (seen.filter fun σ => p σ.time).getLast?.map Sighting.state

section LastSeen

variable {p q : Nat → Bool} {seen : List Sighting}

@[simp] theorem lastSeen_nil (p : Nat → Bool) : lastSeen p [] = none := rfl

theorem lastSeen_append (p : Nat → Bool) (seen later : List Sighting) :
    lastSeen p (seen ++ later) = (lastSeen p later).or (lastSeen p seen) := by
  rw [lastSeen, List.filter_append, List.getLast?_append, Option.map_or]
  rfl

theorem lastSeen_singleton (p : Nat → Bool) (σ : Sighting) :
    lastSeen p [σ] = if p σ.time then some σ.state else none := by
  unfold lastSeen
  by_cases hp : p σ.time <;> simp [hp]

/-- Of two sightings at the same time only the second shows. -/
theorem lastSeen_pair (p : Nat → Bool) (t : Nat) (before state : BreakerState) :
    lastSeen p [⟨t, before⟩, ⟨t, state⟩] = lastSeen p [⟨t, state⟩] := by
  by_cases hp : p t <;> simp [lastSeen, hp]

theorem lastSeen_eq_none_iff : lastSeen p seen = none ↔ ∀ σ ∈ seen, ¬ p σ.time := by
  rw [lastSeen, Option.map_eq_none_iff, List.getLast?_eq_none_iff, List.filter_eq_nil_iff]

/-- Of what was seen in the order of time, the last of a kind is no earlier than the others of that
kind, and it is the last of any narrower kind that its time is of. -/
theorem exists_last_of_lastSeen (horder : (seen.map Sighting.time).Pairwise (· ≤ ·))
    {state : BreakerState} (h : lastSeen p seen = some state) :
    ∃ t, p t ∧ (∀ σ ∈ seen, p σ.time → σ.time ≤ t) ∧
      ∀ q : Nat → Bool, q t → (∀ t, q t → p t) → lastSeen q seen = some state := by
  obtain ⟨last, hlast, rfl⟩ := Option.map_eq_some_iff.mp h
  obtain ⟨before, hfilter⟩ := List.getLast?_eq_some_iff.mp hlast
  have hmem : last ∈ seen.filter fun σ => p σ.time := List.mem_of_getLast? hlast
  refine ⟨last.time, (List.mem_filter.mp hmem).2, fun σ hσ hp => ?_, fun q hq himp => ?_⟩
  · have hσ' : σ ∈ before ++ [last] := hfilter ▸ List.mem_filter.mpr ⟨hσ, hp⟩
    have hsorted : (before ++ [last]).Pairwise fun σ τ => σ.time ≤ τ.time :=
      hfilter ▸ (List.pairwise_map.mp horder).filter _
    rcases List.mem_append.mp hσ' with hbefore | hσ'
    · exact (List.pairwise_append.mp hsorted).2.2 σ hbefore last (List.mem_singleton_self _)
    · rw [List.mem_singleton.mp hσ']
  · have hnarrow : (seen.filter fun σ => q σ.time) =
        (seen.filter fun σ => p σ.time).filter fun σ => q σ.time := by
      rw [List.filter_filter]
      refine List.filter_congr fun τ _ => ?_
      cases hτ : q τ.time with
      | true => simp [himp _ hτ]
      | false => simp
    rw [lastSeen, hnarrow, hfilter, List.filter_append]
    simp [hq]

end LastSeen

/-! ## One slot -/

theorem Grid.le_floor_iff {g : Grid} {start : Nat} (h : g.slotMs ∣ start) (t : Nat) :
    start ≤ g.floor t ↔ start ≤ t := by
  obtain ⟨k, rfl⟩ := h
  rw [g.floor_eq, Nat.mul_le_mul_left_iff g.slotMs_pos, Nat.le_div_iff_mul_le g.slotMs_pos,
    Nat.mul_comm]

/-- A time lies in an aligned range exactly if the start of its slot does. -/
theorem Grid.floor_between_iff {g : Grid} {start stop : Nat} (hstart : g.slotMs ∣ start)
    (hstop : g.slotMs ∣ stop) (t : Nat) :
    (start ≤ g.floor t ∧ g.floor t < stop) ↔ start ≤ t ∧ t < stop := by
  rw [le_floor_iff hstart, ← Nat.not_le, le_floor_iff hstop, Nat.not_le]

namespace Series

variable {g : Grid} {seen seen' : List Sighting} {x x' : Series}

theorem state_slotFor (x : Series) (start : Nat) :
    (x.slotFor start).state = (x.slots.get? start).bind Slot.state := by
  unfold slotFor
  cases x.slots.get? start <;> rfl

/-- Within the retention span behind the newest, the slots of a series have the state that was seen
last in them. Of what lies further back nothing is said, for it may be dropped and come back empty.
-/
structure Shows (g : Grid) (seen : List Sighting) (x : Series) : Prop where
  tidy : x.Tidy g.slotMs
  state_eq : ∀ {place}, x.newest < place + g.retentionMs →
    (x.slots.get? place).bind Slot.state = lastSeen (fun t => g.floor t = place) seen

theorem Shows.congr (h : x.Shows g seen) (hslots : x'.slots = x.slots)
    (hnewest : x'.newest = x.newest) : x'.Shows g seen where
  tidy := h.tidy.congr hslots hnewest
  state_eq hplace := by
    rw [hslots]
    exact h.state_eq (hnewest ▸ hplace)

theorem Shows.congr_lastSeen (h : x.Shows g seen) (hseen : ∀ p, lastSeen p seen = lastSeen p seen') :
    x.Shows g seen' where
  tidy := h.tidy
  state_eq hplace := (h.state_eq hplace).trans (hseen _)

theorem shows_new (g : Grid) (now : Nat) : (Series.new now).Shows g [] where
  tidy := tidy_of_empty rfl
  state_eq _ := rfl

/-- A write shows what it notes, if it notes anything. What it drops is not within the span. A write
that notes nothing leaves the state of its slot as it was. -/
theorem Shows.write (h : x.Shows g seen) {f : Slot → Slot} {note? : Option BreakerState}
    (hf : ∀ slot, (f slot).start = slot.start)
    (hstate : ∀ slot, (f slot).state = note?.or slot.state) (now : Nat) :
    (x.updateSlot (g.floor now) g.retentionMs f).Shows g
      (seen ++ (note?.map (Sighting.mk now)).toList) where
  tidy := h.tidy.updateSlot g.retentionMs_pos (g.dvd_floor now) hf
  state_eq {place} hplace := by
    rw [h.tidy.newest_updateSlot] at hplace
    have hbefore : (x.slots.get? place).bind Slot.state =
        lastSeen (fun t => g.floor t = place) seen := h.state_eq (by omega)
    have hkept : ¬ (x.newest < g.floor now ∧ place + g.retentionMs ≤ g.floor now) := by omega
    rw [h.tidy.get?_updateSlot g.retentionMs_pos hf, if_neg hkept, lastSeen_append]
    by_cases hat : place = g.floor now
    · subst hat
      rw [if_pos rfl, Option.bind_some, hstate, state_slotFor, hbefore]
      cases note? <;> simp [lastSeen_singleton]
    · have hat' : ¬ g.floor now = place := fun e => hat e.symm
      rw [if_neg hat, hbefore]
      cases note? <;> simp [lastSeen_singleton, hat']

/-! ## Windows -/

/-- A slot of a window within the span has the state that was seen last in it. -/
theorem Shows.state_of_mem_within (h : x.Shows g seen) {start stop : Nat}
    (hspan : x.newest < start + g.retentionMs) {slot : Slot} (hslot : slot ∈ x.within start stop) :
    slot.state = lastSeen (fun t => g.floor t = slot.start) seen := by
  obtain ⟨hget, hle, -⟩ := (mem_within_iff h.tidy.placed).mp hslot
  have hspan : x.newest < slot.start + g.retentionMs := by omega
  have hstate := h.state_eq hspan
  rwa [hget, Option.bind_some] at hstate

/-- **A window shows what was seen last in it**, if nothing was seen out of order. The latest slot that
has a state is then the slot of the last sighting. -/
theorem Shows.state?_of_isMergeOf (h : x.Shows g seen) {w : Window} {start stop : Nat}
    (hw : w.IsMergeOf start stop (x.within start stop)) (hstart : g.slotMs ∣ start)
    (hstop : g.slotMs ∣ stop) (hspan : x.newest < start + g.retentionMs)
    (horder : (seen.map Sighting.time).Pairwise (· ≤ ·)) :
    w.state? = lastSeen (fun t => start ≤ t ∧ t < stop) seen := by
  -- a sighting lies in the window exactly if its slot does, as the window ends and starts with
  -- slots
  have hrange : ∀ {t place}, decide (g.floor t = place) → start ≤ place ∧ place < stop →
      decide (start ≤ t ∧ t < stop) := by
    intro t place hplace hin
    rw [← of_decide_eq_true hplace, Grid.floor_between_iff hstart hstop] at hin
    exact decide_eq_true hin
  cases hlast : lastSeen (fun t => start ≤ t ∧ t < stop) seen with
  | none =>
    refine hw.state?_eq_none_iff.mpr fun slot hslot => ?_
    have hin := ((mem_within_iff h.tidy.placed).mp hslot).2
    rw [h.state_of_mem_within hspan hslot, lastSeen_eq_none_iff]
    exact fun σ hσ hplace => lastSeen_eq_none_iff.mp hlast σ hσ (hrange hplace hin)
  | some state =>
    -- the last sighting of the window is also the last one of its slot, and no later slot has any
    obtain ⟨t, ht, hlatest, hnarrow⟩ := exists_last_of_lastSeen horder hlast
    have hin := (Grid.floor_between_iff hstart hstop t).mpr (of_decide_eq_true ht)
    have hstate : (x.slots.get? (g.floor t)).bind Slot.state = some state :=
      (h.state_eq (by omega)).trans
        (hnarrow _ (decide_eq_true rfl) fun t' ht' => hrange ht' hin)
    obtain ⟨slot, hget, hstate⟩ := Option.bind_eq_some_iff.mp hstate
    have hplace : slot.start = g.floor t := h.tidy.placed hget
    refine (hw.state?_eq_some_iff state).mpr ⟨slot, ⟨?_, by rw [hstate]; rfl, ?_⟩, hstate⟩
    · exact (mem_within_iff h.tidy.placed).mpr ⟨hplace ▸ hget, hplace ▸ hin⟩
    · intro other hother hsome
      have hin' := ((mem_within_iff h.tidy.placed).mp hother).2
      rw [h.state_of_mem_within hspan hother, Option.isSome_iff_ne_none, Ne,
        lastSeen_eq_none_iff] at hsome
      push Not at hsome
      obtain ⟨σ, hσ, hplace'⟩ := hsome
      rw [hplace, ← of_decide_eq_true hplace']
      exact g.floor_mono (hlatest σ hσ (hrange hplace' hin'))

end Series

/-! ## Calls of a store -/

/-- What a call notes of the breaker of a resource. Calls for other resources note nothing of it. -/
def StatCall.sighting? (r : Resource) : StatCall → Option Sighting
  | .recordState r' state now => if r' = r then some ⟨now, state⟩ else none
  | _ => none

/-- A call that writes a slot notes its state in that slot and nowhere else. -/
theorem StatCall.sighting?_of_write? {s : StatStore} {c : StatCall} {w : SlotWrite} (r : Resource)
    (hw : c.write? s = some w) :
    c.sighting? r = if w.resource = r then c.note?.map (Sighting.mk w.time) else none := by
  cases c with
  | acquire | acquireUnbounded | release => cases hw
  | incr | tryStart | recordLatency | observe => simp [sighting?, note?]
  | recordState =>
    cases hw
    rfl

namespace StatStore

variable {s : StatStore} {r : Resource} {seen : List Sighting}

/-- The slots of a resource show what was seen of its breaker. -/
structure Shows (r : Resource) (seen : List Sighting) (s : StatStore) : Prop where
  steady : s.Steady
  series : ∀ t, (s.seriesAt r t).Shows s.grid seen

theorem shows_new (slotMs retained : Nat) (r : Resource) :
    (StatStore.new slotMs retained).Shows r [] where
  steady _ hsome := by cases hsome
  series := Series.shows_new _

/-- **What a call notes is shown.** A call that writes no slot notes nothing. -/
theorem Shows.call (h : s.Shows r seen) (c : StatCall) :
    (s.call c).Shows r (seen ++ (c.sighting? r).toList) where
  steady := h.steady.call c
  series t := by
    rw [s.grid_call c]
    cases hw : c.write? s with
    | none =>
      obtain ⟨hslots, hnewest⟩ := slots_call_of_write?_eq_none hw r t
      have hnone : c.sighting? r = none := by cases c <;> first | rfl | cases hw
      rw [hnone, Option.toList_none, List.append_nil]
      exact (h.series t).congr hslots hnewest
    | some w =>
      obtain ⟨x, f, hchange, hview⟩ := h.steady.call_of_write? hw
      rw [seriesAt_of_get? hview, StatCall.sighting?_of_write? r hw]
      by_cases hr : r = w.resource
      · subst hr
        rw [if_pos rfl, if_pos rfl]
        exact ((h.series w.time).congr hchange.slots hchange.newest).write hchange.start
          hchange.state w.time
      · rw [if_neg hr, if_neg fun e => hr e.symm, Option.toList_none, List.append_nil]
        exact h.series t

theorem Shows.calls (cs : List StatCall) : ∀ {s : StatStore} {seen : List Sighting},
    s.Shows r seen → (s.calls cs).Shows r (seen ++ cs.filterMap (StatCall.sighting? r)) := by
  induction cs with
  | nil =>
    intro s seen h
    rw [List.filterMap_nil, List.append_nil]
    exact h
  | cons c cs ih =>
    intro s seen h
    have hrest := ih (h.call c)
    simp only [List.filterMap_eq_flatMap_toList, List.flatMap_cons, List.append_assoc] at hrest ⊢
    exact hrest

end StatStore

/-- The statistics after a run of calls, with no account of what was written. -/
theorem StatRun.store_after (calls : List StatCall) :
    ∀ run : StatRun, (run.after calls).store = run.store.calls calls := by
  induction calls with
  | nil => exact fun _ => rfl
  | cons c calls ih => exact fun run => ih (run.step c)

end Floodgate
