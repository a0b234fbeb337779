import Floodgate.Proofs.Stats.Views

/-!
# Every series, evicted or not

A series goes on to be read and written through its handles when it has been evicted. What holds of
every series, present or evicted, is therefore said of handles: `StatStore.Every`. An eviction, which
takes series off their places, does nothing to it. All operations are made of two steps, a series is
made if there is none and a series is changed through its handle, so it is enough that new series
have a property and that changes keep it.

Several writes of one slot, one after another, are one write (`Series.Tidy.updateSlot_updateSlot`):
the slot that the first one made or found is still there for the second.
-/

set_option autoImplicit false

namespace Floodgate

/-! ## Writes of one slot -/

namespace Table

variable {κ α : Type} [DecidableEq κ]

/-- Of two values that are put at a key, the second stays. -/
theorem modify_modify_const (t : Table κ α) (k : κ) (a b : α) :
    (t.modify k fun _ => a).modify k (fun _ => b) = t.modify k fun _ => b := by
  obtain ⟨entries, nodup⟩ := t
  simp only [modify, map, List.map_map, mk.injEq]
  refine List.map_congr_left fun e _ => ?_
  by_cases h : e.1 = k <;> simp [h]

end Table

namespace Series

variable {slotMs start retention : Nat} {s : Series} {f g : Slot → Slot}

theorem slotFor_of_get? {slot : Slot} (h : s.slots.get? start = some slot) :
    s.slotFor start = slot := by
  rw [slotFor, h]
  rfl

/-- **Two writes of a slot are one.** The first one makes the slot if there is none and drops what
has expired, so that nothing is left of that for the second. -/
theorem Tidy.updateSlot_updateSlot (h : s.Tidy slotMs) (hret : 0 < retention)
    (hf : ∀ slot, (f slot).start = slot.start) (hg : ∀ slot, (g slot).start = slot.start) :
    (s.updateSlot start retention f).updateSlot start retention g =
      s.updateSlot start retention fun slot => g (f slot) := by
  have hslot : (s.updateSlot start retention f).slots.get? start = some (f (s.slotFor start)) := by
    rw [h.get?_updateSlot hret hf, if_pos rfl]
  have hfound : (s.updateSlot start retention f).slotAt start retention =
      (f (s.slotFor start), s.updateSlot start retention f) := by
    rw [slotAt, hslot]
  have hplace : (f (s.slotFor start)).start = start := by rw [hf, h.start_slotFor]
  show ((s.updateSlot start retention f).slotAt start retention).2.putSlot
    (g ((s.updateSlot start retention f).slotAt start retention).1) =
      (s.slotAt start retention).2.putSlot (g (f (s.slotAt start retention).1))
  rw [hfound, slotAt_fst]
  show ((s.slotAt start retention).2.putSlot (f (s.slotAt start retention).1)).putSlot _ = _
  rw [slotAt_fst]
  simp only [putSlot, hg, hplace, Table.modify_modify_const]

theorem touch_expire (s : Series) (start retention now : Nat) :
    (s.expire start retention).touch now = (s.touch now).expire start retention := by
  by_cases h : retention ≤ start <;> simp [expire, touch, h]

/-- That a series is used is nothing to its slots. -/
theorem slotAt_touch (s : Series) (start retention now : Nat) :
    (s.touch now).slotAt start retention =
      ((s.slotAt start retention).1, (s.slotAt start retention).2.touch now) := by
  have hslots : (s.touch now).slots = s.slots := rfl
  rw [slotAt, slotAt, hslots]
  cases s.slots.get? start with
  | some slot => rfl
  | none =>
    by_cases hlt : s.newest < start
    · have hlt' : (s.touch now).newest < start := hlt
      simp only [if_pos hlt, if_pos hlt', touch_expire]
      rfl
    · have hlt' : ¬ (s.touch now).newest < start := hlt
      simp only [if_neg hlt, if_neg hlt']
      rfl

/-- It makes no difference whether a series is touched before or after a write. -/
theorem touch_updateSlot (s : Series) (start retention now : Nat) (f : Slot → Slot) :
    (s.updateSlot start retention f).touch now = (s.touch now).updateSlot start retention f := by
  rw [updateSlot, updateSlot, slotAt_touch]
  rfl

@[simp] theorem touch_touch (s : Series) (now : Nat) : (s.touch now).touch now = s.touch now := by
  simp [touch]

end Series

namespace StatStore

/-! ## The series behind a handle -/

section

variable (s : StatStore) (r : Resource) (now : Nat) (h : Handle Resource)

/-- A change through a handle is seen through that handle, whether its series is present or not. -/
theorem held?_modify (hd : Handle Resource) (f : Series → Series) :
    (s.modify hd f).held? h = if h = hd then (s.held? hd).map f else s.held? h :=
  s.series.get?_modify hd h f

/-- An eviction does nothing to the series behind a handle. A request that was counted there may
still come back to it. -/
@[simp] theorem held?_evictIdle (idleMs : Nat) : (s.evictIdle now idleMs).held? h = s.held? h :=
  s.series.get?_retain _ h

variable {s r h} in
theorem track_of_handle? (hr : s.series.handle? r = some h) (now : Nat) : s.track r now = (h, s) := by
  rw [track, hr]

/-- To find the series of a resource makes one behind a new handle at most. -/
theorem held?_track :
    (s.track r now).2.held? h =
      if h = (s.track r now).1 then some ((s.held? h).getD (Series.new now)) else s.held? h := by
  cases hr : s.series.handle? r with
  | some hd =>
    rw [track_of_handle? hr]
    split
    · rename_i e
      subst e
      obtain ⟨x, hx, -⟩ := Option.map_eq_some_iff.mp hr
      have hheld : s.held? h = some x := (Roster.get?_of_handle? hr).trans hx
      simp [hheld]
    · rfl
  | none =>
    have hfresh : s.held? ⟨r, (s.series.place r).holders.length⟩ = none :=
      List.getElem?_eq_none (Nat.le_refl _)
    simp only [track, hr]
    refine (s.series.get?_install r (Series.new now) h).trans ?_
    split
    · rename_i e
      subst e
      rw [hfresh]
      rfl
    · rfl

/-- A change of the series of a resource, which is made if there is none. -/
theorem held?_track_modify (f : Series → Series) :
    ((s.track r now).2.modify (s.track r now).1 f).held? h =
      if h = (s.track r now).1 then some (f ((s.held? h).getD (Series.new now)))
      else s.held? h := by
  rw [held?_modify, held?_track, held?_track]
  by_cases e : h = (s.track r now).1 <;> simp [e]

theorem held?_used_modify (f : Series → Series) :
    ((s.used r now).modify (s.track r now).1 f).held? h =
      if h = (s.track r now).1 then some (f (((s.held? h).getD (Series.new now)).touch now))
      else s.held? h := by
  rw [held?_modify, used, held?_track_modify, held?_track_modify]
  by_cases e : h = (s.track r now).1 <;> simp [e]

theorem held?_incr (o : Outcome) :
    (s.incr r o now).held? h =
      if h = (s.track r now).1 then
        some ((((s.held? h).getD (Series.new now)).touch now).updateSlot (s.grid.floor now)
          s.grid.retentionMs (·.incr o))
      else s.held? h := by
  rw [← s.grid_used r now]
  exact s.held?_used_modify r now h _

theorem held?_recordLatency (ms : Nat) :
    (s.recordLatency r ms now).held? h =
      if h = (s.track r now).1 then
        some (((s.held? h).getD (Series.new now)).updateSlot (s.grid.floor now) s.grid.retentionMs
          (·.recordLatency ms))
      else s.held? h := by
  rw [← s.grid_track r now]
  exact s.held?_track_modify r now h _

/-- What is counted next for a resource is counted through the same handle. Nothing comes in
between, so its series cannot have been evicted. -/
theorem track_incr (o : Outcome) (later : Nat) :
    (s.incr r o now).track r later = ((s.track r now).1, s.incr r o now) := by
  refine track_of_handle? ?_ later
  show ((s.used r now).modify _ _).series.handle? r = _
  rw [modify, Roster.handle?_modify]
  exact s.handle?_used r now

end

/-! ## What holds of every series -/

/-- A property of the series of each resource, evicted or not. It is kept by evictions for free,
which is why invariants that have nothing to do with them are stated in this way. -/
def Every (P : Resource → Series → Prop) (s : StatStore) : Prop :=
  ∀ h x, s.held? h = some x → P h.key x

variable {P : Resource → Series → Prop} {s : StatStore} {r : Resource} {now : Nat}

theorem every_new (slotMs retained : Nat) : (StatStore.new slotMs retained).Every P :=
  fun h x hx => by cases (show none = some x from hx)

theorem Every.get? (hs : s.Every P) {x : Series} (hx : s.get? r = some x) : P r x := by
  obtain ⟨h, hh⟩ := Option.isSome_iff_exists.mp
    ((s.series.handle?_isSome r).trans (Option.isSome_iff_exists.mpr ⟨x, hx⟩))
  have hheld : s.held? h = some x := (Roster.get?_of_handle? hh).trans hx
  exact Roster.key_of_handle? hh ▸ hs h x hheld

/-- A series that is made must have the property from the start. -/
theorem Every.track (hs : s.Every P) (hnew : P r (Series.new now)) : (s.track r now).2.Every P := by
  intro h x hx
  rw [held?_track] at hx
  split at hx
  · rename_i e
    cases hheld : s.held? h with
    | some y =>
      rw [hheld] at hx
      exact Option.some.inj hx ▸ hs h y hheld
    | none =>
      rw [hheld] at hx
      rw [e, key_track]
      exact Option.some.inj hx ▸ hnew
  · exact hs h x hx

/-- A change is only asked to keep the property of the series behind its handle. That the series is
the one behind the handle may be used. -/
theorem Every.modify (hs : s.Every P) {hd : Handle Resource} {f : Series → Series}
    (hf : ∀ x, s.held? hd = some x → P hd.key x → P hd.key (f x)) : (s.modify hd f).Every P := by
  intro h x hx
  rw [held?_modify] at hx
  split at hx
  · rename_i e
    subst e
    obtain ⟨y, hy, rfl⟩ := Option.map_eq_some_iff.mp hx
    exact hf y hy (hs h y hy)
  · exact hs h x hx

theorem Every.evictIdle (hs : s.Every P) (now idleMs : Nat) : (s.evictIdle now idleMs).Every P :=
  fun h x hx => hs h x ((s.held?_evictIdle now h idleMs).symm.trans hx)

end StatStore
end Floodgate
