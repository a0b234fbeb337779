import Floodgate.Proofs.Stats.Views
import Mathlib.Data.Set.BooleanAlgebra
import Mathlib.Order.CompletePartialOrder

/-!
# The footprint of an operation

Two states may agree on some resources and differ on all others. An operation has a set of resources
as its footprint if it leaves the others alone (`frame`), and if its answer and what it does to its
resources depend on nothing but these (`congr`). Footprints compose: `bind` is for an operation that
goes on with the answer of another, and the rest of the file takes the operations of a store apart
into readings and changes through handles.

What it is for two states to agree is left open here, so that the same lemmas serve a store of
statistics and a whole gate. Stores agree on a resource if its place has the same history in both,
with the series that have been evicted: handles are then the same too.
-/

set_option autoImplicit false

namespace Floodgate

/-- The resources that an operation works on, whatever it is to agree on some. An operation that
goes on with its answer is a function of the answer, so the answer is part of what must not depend
on other resources. -/
structure HasFootprint {S α : Type} (agree : Set Resource → S → S → Prop) (R : Set Resource)
    (op : S → α × S) : Prop where
  /-- Off its footprint the operation changes nothing. -/
  frame : ∀ {Q : Set Resource} {s s' : S}, Disjoint R Q → agree Q s s' → agree Q (op s).2 s'
  /-- It does the same wherever its footprint is the same. -/
  congr : ∀ {Q : Set Resource} {s s' : S}, R ⊆ Q → agree Q s s' →
    (op s).1 = (op s').1 ∧ agree Q (op s).2 (op s').2

namespace HasFootprint

variable {S α β : Type} {agree : Set Resource → S → S → Prop} {R R' : Set Resource}
  {f : S → α × S} {k : α → S → β × S}

/-- A footprint may be given too large. A caller names the union of what its parts work on, and each
part is widened to that. -/
theorem mono (hR : R ⊆ R') (hf : HasFootprint agree R f) : HasFootprint agree R' f where
  frame hQ := hf.frame (hQ.mono_left hR)
  congr hQ := hf.congr (hR.trans hQ)

/-- The most common widening: an operation on one resource, inside of an operation on several. -/
theorem within {r : Resource} (hf : HasFootprint agree {r} f) (hr : r ∈ R) :
    HasFootprint agree R f := hf.mono fun r' hr' => (hr' : r' = r) ▸ hr

theorem of_eq {f' : S → α × S} (hf : HasFootprint agree R f') (heq : ∀ s, f s = f' s) :
    HasFootprint agree R f := (funext heq : f = f') ▸ hf

/-- It is enough to know the operation on states that agree with any at all. States that agree are
well formed, so an equation that only holds of well-formed states will do. -/
theorem of_eq_on {P : S → Prop} {f' : S → α × S} (hf : HasFootprint agree R f')
    (hP : ∀ {Q : Set Resource} {s s' : S}, agree Q s s' → P s ∧ P s')
    (heq : ∀ s, P s → f s = f' s) : HasFootprint agree R f where
  frame {_ s _} hQ h := by
    rw [heq s (hP h).1]
    exact hf.frame hQ h
  congr {_ s s'} hQ h := by
    rw [heq s (hP h).1, heq s' (hP h).2]
    exact hf.congr hQ h

/-- An operation that only gives an answer works on no resource. -/
theorem answer (a : α) : HasFootprint agree R fun s => (a, s) where
  frame _ h := h
  congr _ h := ⟨rfl, h⟩

/-- Neither does an operation that only reads, but it must read from its footprint alone. -/
theorem read {read : S → α}
    (hread : ∀ {Q : Set Resource} {s s' : S}, R ⊆ Q → agree Q s s' → read s = read s') :
    HasFootprint agree R fun s => (read s, s) where
  frame _ h := h
  congr hQ h := ⟨hread hQ h, h⟩

/-- An operation that goes on with the answer of another, of which something may be known. -/
theorem bind_of {P : α → Prop} (hf : HasFootprint agree R f)
    (hP : ∀ {Q : Set Resource} {s s' : S}, agree Q s s' → P (f s).1)
    (hk : ∀ a, P a → HasFootprint agree R (k a)) :
    HasFootprint agree R fun s => k (f s).1 (f s).2 where
  frame hQ h := (hk _ (hP h)).frame hQ (hf.frame hQ h)
  congr {Q s s'} hQ h := by
    obtain ⟨hanswer, hstate⟩ := hf.congr hQ h
    have hrest := (hk _ (hP h)).congr hQ hstate
    rw [hanswer] at hrest ⊢
    exact hrest

/-- The rule by which all footprints below are put together: an operation may go on with whatever
the operation before it has answered. -/
theorem bind (hf : HasFootprint agree R f) (hk : ∀ a, HasFootprint agree R (k a)) :
    HasFootprint agree R fun s => k (f s).1 (f s).2 :=
  hf.bind_of (fun _ => trivial) fun a (_ : True) => hk a

end HasFootprint

/-! ## Agreement of stores -/

namespace Roster

variable {κ α : Type} [DecidableEq κ] {r r' : Roster κ α}

/-- Whether a resource has a present series, and which, is a matter of its place alone. -/
theorem handle?_congr {k : κ} (h : r.place k = r'.place k) : r.handle? k = r'.handle? k := by
  rw [handle?, handle?, current?, current?, h]

/-- A handle is resolved at the place of its key, so handles of one resource never reach another. -/
theorem get?_congr {h : Handle κ} (hp : r.place h.key = r'.place h.key) : r.get? h = r'.get? h := by
  rw [get?, get?, hp]

end Roster

namespace StatStore

/-- The stores have the same grid, and the same history at some resources. -/
structure AgreeOn (Q : Set Resource) (s s' : StatStore) : Prop where
  grid : s.grid = s'.grid
  place : ∀ {r}, r ∈ Q → s.series.place r = s'.series.place r

variable {Q : Set Resource} {s s' : StatStore} {r : Resource}

theorem AgreeOn.get? (h : AgreeOn Q s s') (hr : r ∈ Q) : s.get? r = s'.get? r := by
  rw [StatStore.get?, StatStore.get?, Roster.current?, Roster.current?, h.place hr]

/-- Stores that agree on a resource have the same requests in flight for it. -/
theorem AgreeOn.inFlight (h : AgreeOn Q s s') (hr : r ∈ Q) : s.inFlight r = s'.inFlight r := by
  rw [StatStore.inFlight, StatStore.inFlight, h.get? hr]

/-- They also give the same windows, as the lengths of slots are those of the common grid. -/
theorem AgreeOn.window (h : AgreeOn Q s s') (hr : r ∈ Q) (start stop : Nat) :
    s.window r start stop = s'.window r start stop := by
  rw [StatStore.window, StatStore.window, h.get? hr]
  unfold windowOf
  rw [h.grid]

/-! ## Operations of a store -/

section Footprints

variable (r : Resource) (h : Handle Resource) (now : Nat)

/-- Making a series installs it at the place of its resource. The handle is the same in both stores
since it counts the series that the place has had before. -/
theorem footprint_track : HasFootprint AgreeOn {r} fun s => s.track r now where
  frame {Q s s'} hQ h := by
    refine ⟨(s.grid_track r now).trans h.grid, fun {r'} hr' => ?_⟩
    have hne : r' ≠ r := fun heq => Set.disjoint_left.mp hQ heq hr'
    unfold track
    split
    · exact h.place hr'
    · dsimp only
      rw [Roster.place_install, if_neg hne]
      exact h.place hr'
  congr {Q s s'} hQ h := by
    have hplace := h.place (hQ rfl)
    have hhandle := Roster.handle?_congr hplace
    unfold track
    rw [← hhandle]
    split
    · exact ⟨rfl, h⟩
    · refine ⟨by rw [hplace], h.grid, fun {r'} hr' => ?_⟩
      dsimp only
      rw [Roster.place_install, Roster.place_install, hplace, h.place hr']

/-- A change through a handle reaches the place of its key and no other, and the change may depend
on the grid, which is common to both. -/
theorem footprint_modify (f : Grid → Series → Series) :
    HasFootprint AgreeOn {h.key} fun s => ((), s.modify h (f s.grid)) where
  frame {Q s s'} hQ hs := by
    refine ⟨hs.grid, fun {r'} hr' => ?_⟩
    have hne : r' ≠ h.key := fun heq => Set.disjoint_left.mp hQ heq hr'
    dsimp only [modify]
    rw [Roster.place_modify, if_neg hne]
    exact hs.place hr'
  congr {Q s s'} _ hs := by
    refine ⟨rfl, hs.grid, fun {r'} hr' => ?_⟩
    dsimp only [modify]
    rw [Roster.place_modify, Roster.place_modify, hs.place hr', hs.grid]

theorem footprint_updateSlot (f : Slot → Slot) :
    HasFootprint AgreeOn {h.key} fun s => ((), s.updateSlot h now f) :=
  footprint_modify h fun grid series => series.updateSlot (grid.floor now) grid.retentionMs f

theorem footprint_release : HasFootprint AgreeOn {h.key} fun s => ((), s.release h) :=
  footprint_modify h fun _ => Series.release

theorem footprint_held? : HasFootprint AgreeOn {h.key} fun s => (s.held? h, s) :=
  .read fun hQ hs => Roster.get?_congr (hs.place (hQ rfl))

/-- What is shown to the slot is the number of requests in flight, so this reads the series first.
-/
theorem footprint_observe : HasFootprint AgreeOn {h.key} fun s => ((), s.observe h now) := by
  have hop := (footprint_held? h).bind fun series =>
    footprint_updateSlot h now fun slot => slot.observe ((series.map Series.inFlight).getD 0)
  exact hop

variable {h r} in
/-- The series of a resource is changed, or a new one is. -/
theorem footprint_of_track {α : Type} {k : Handle Resource → StatStore → α × StatStore}
    (hk : ∀ h : Handle Resource, h.key = r → HasFootprint AgreeOn {h.key} (k h)) :
    HasFootprint AgreeOn {r} fun s => k (s.track r now).1 (s.track r now).2 :=
  (footprint_track r now).bind_of (P := fun h => h.key = r) (fun {_ s _} _ => s.key_track r now)
    fun h hkey => hkey ▸ hk h hkey

theorem footprint_touch : HasFootprint AgreeOn {h.key} fun s => ((), s.modify h (·.touch now)) :=
  footprint_modify h fun _ series => series.touch now

/-- From here on the operations of the store are taken apart in one way: a series is made if there
is none, it is touched, and the slot of the present is written. -/
theorem footprint_incr (o : Outcome) : HasFootprint AgreeOn {r} fun s => ((), s.incr r o now) := by
  have hop := footprint_of_track (r := r) now fun h _ => (footprint_touch h now).bind fun _ =>
    footprint_updateSlot h now (·.incr o)
  exact hop

theorem footprint_recordLatency (ms : Nat) :
    HasFootprint AgreeOn {r} fun s => ((), s.recordLatency r ms now) := by
  have hop := footprint_of_track (r := r) now fun h _ =>
    footprint_updateSlot h now (·.recordLatency ms)
  exact hop

theorem footprint_recordState (state : BreakerState) :
    HasFootprint AgreeOn {r} fun s => ((), s.recordState r state now) := by
  have hop := footprint_of_track (r := r) now fun h _ =>
    footprint_updateSlot h now (·.recordState state)
  exact hop

theorem footprint_acquireUnbounded :
    HasFootprint AgreeOn {r} fun s => s.acquireUnbounded r now := by
  have hop := footprint_of_track (r := r) now fun h _ =>
    (footprint_modify h fun _ series => (series.touch now).acquire).bind fun _ => .answer h
  exact hop

/-- The answer depends on the slot of the present, and that belongs to the resource asked for. -/
theorem footprint_tryStart (budget : Nat) :
    HasFootprint AgreeOn {r} fun s => s.tryStart r budget now := by
  have hslot (h : Handle Resource) : HasFootprint AgreeOn {h.key} fun s =>
      ((s.held? h).map fun series =>
        (series.slotAt (s.grid.floor now) s.grid.retentionMs).1, s) :=
    .read fun hQ hs => by rw [held?, held?, Roster.get?_congr (hs.place (hQ rfl)), hs.grid]
  have hop := footprint_of_track (r := r) now fun h _ =>
    (footprint_touch h now).bind fun _ => (hslot h).bind fun slot =>
      (footprint_updateSlot h now fun slot => (slot.tryStart budget).2).bind fun _ =>
        .answer (slot.any fun slot => (slot.tryStart budget).1)
  exact hop

/-- Whether a unit is granted depends on the requests in flight for the same resource. -/
theorem footprint_acquire (limit : Option Nat) :
    HasFootprint AgreeOn {r} fun s => s.acquire r limit now := by
  have hop := footprint_of_track (r := r) now fun h _ =>
    (footprint_touch h now).bind fun _ => (footprint_held? h).bind fun series =>
      show HasFootprint AgreeOn {h.key} fun s : StatStore =>
        if series.any fun series => (series.acquire? limit).isSome then
          (some h, s.modify h (·.acquire))
        else (none, s) by
      split
      · exact (footprint_modify h fun _ => Series.acquire).bind fun _ => .answer (some h)
      · exact .answer none
  exact hop

end Footprints

end StatStore
end Floodgate
