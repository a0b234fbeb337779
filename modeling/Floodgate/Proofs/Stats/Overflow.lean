import Floodgate.Proofs.Stats.Log
import Floodgate.Stats.Overflow

/-!
# When the latencies of a window leave the words

Whether a build with checks stops while it merges slots is asked slot by slot, in the order in which
they are found. Latencies are never negative, so a sum that has left the words does not come back,
and neither the order nor the way the slots are found matters: it stops exactly if all the latencies
in the window together are more than a word can say (`StatStore.overflows_iff`). Where it does not,
the total latency of the window is that sum and not merely its remainder
(`StatStore.totalLatency_window`).
-/

set_option autoImplicit false

namespace Floodgate

/-! ## Merging -/

namespace Window

/-- Merging stops exactly if the sum of all latencies leaves the words: the first sum to leave them
is no larger than the last one. -/
theorem overflows_iff (slots : List Slot) : ∀ {w : Window}, w.totalLatency < Word.size →
    (w.overflows slots = true ↔
      Word.size ≤ w.totalLatency + (slots.map Slot.totalLatency).sum) := by
  induction slots with
  | nil =>
    intro w hw
    simpa [overflows] using hw
  | cons slot slots ih =>
    intro w hw
    rw [overflows, Bool.or_eq_true, Option.isNone_iff_eq_none, Word.add?_eq_none_iff, List.map_cons,
      List.sum_cons, ← Nat.add_assoc]
    rcases Nat.lt_or_ge (w.totalLatency + slot.totalLatency) Word.size with hfits | hleft
    · have hmerge : (w.merge slot).totalLatency = w.totalLatency + slot.totalLatency :=
        Word.addWrapping_of_lt hfits
      rw [or_iff_right (Nat.not_le.mpr hfits), ih (w := w.merge slot) (hmerge ▸ hfits), hmerge]
    · exact iff_of_true (.inl hleft) (hleft.trans (Nat.le_add_right _ _))

/-- Where merging does not stop, the total latency is the sum of all latencies. -/
theorem totalLatency_mergeAll (slots : List Slot) : ∀ {w : Window}, w.overflows slots = false →
    (w.mergeAll slots).totalLatency = w.totalLatency + (slots.map Slot.totalLatency).sum := by
  induction slots with
  | nil => exact fun _ => rfl
  | cons slot slots ih =>
    intro w h
    obtain ⟨hfits, hrest⟩ := Bool.or_eq_false_iff.mp h
    have hmerge : (w.merge slot).totalLatency = w.totalLatency + slot.totalLatency := by
      obtain ⟨sum, hsum⟩ := Option.isSome_iff_exists.mp (Option.isNone_eq_false_iff.mp hfits)
      exact Word.addWrapping_of_lt (Word.add?_eq_some_iff.mp hsum).1
    show ((w.merge slot).mergeAll slots).totalLatency = _
    rw [ih hrest, hmerge, List.map_cons, List.sum_cons, Nat.add_assoc]

end Window

/-! ## Windows of a series -/

namespace Series

variable {s : Series} {slotMs start stop : Nat}

/-- The sum of the latencies in the slot at a place. -/
def latencyAt (s : Series) (place : Nat) : Nat :=
  ((s.slots.get? place).map Slot.totalLatency).getD 0

theorem sum_latencyAt_new (places : Finset Nat) (number : Nat) :
    ∑ place ∈ places, (Series.new number).latencyAt place = 0 :=
  Finset.sum_eq_zero fun _ _ => rfl

/-- The latencies of the slots that are found are those of the places in the window, in whichever of
the two ways they are found. -/
theorem Tidy.sum_latency_slotsIn (h : s.Tidy slotMs) (hpos : 0 < slotMs)
    (hstop : stop < Word.size) :
    ((s.slotsIn start stop slotMs).map Slot.totalLatency).sum =
      ∑ place ∈ Finset.Ico start stop, s.latencyAt place := by
  rw [((slotsIn_perm_scanned h.aligned hpos hstop).map _).sum_eq, scanned, Table.sum_filter_range]
  rfl

theorem Tidy.overflows_iff (h : s.Tidy slotMs) (hpos : 0 < slotMs) (hstop : stop < Word.size) :
    s.overflows start stop slotMs = true ↔
      Word.size ≤ ∑ place ∈ Finset.Ico start stop, s.latencyAt place := by
  have hempty : (Window.empty start stop).totalLatency = 0 := rfl
  have hword : (Window.empty start stop).totalLatency < Word.size := hempty ▸ (by decide)
  rw [overflows, Nat.max_eq_left hpos, Window.overflows_iff _ hword, hempty, Nat.zero_add,
    h.sum_latency_slotsIn hpos hstop]

theorem Tidy.totalLatency_aggregate (h : s.Tidy slotMs) (hpos : 0 < slotMs)
    (hstop : stop < Word.size) (hfits : s.overflows start stop slotMs = false) :
    (s.aggregate start stop slotMs).totalLatency =
      ∑ place ∈ Finset.Ico start stop, s.latencyAt place := by
  have hempty : (Window.empty start stop).totalLatency = 0 := rfl
  rw [overflows, Nat.max_eq_left hpos] at hfits
  rw [aggregate, Nat.max_eq_left hpos, Window.totalLatency_mergeAll _ hfits, hempty, Nat.zero_add,
    h.sum_latency_slotsIn hpos hstop]

end Series

/-! ## Windows of a store -/

namespace StatStore

variable {s : StatStore} {r : Resource} {start stop : Nat}

/-- **When a build with checks gives no window**: exactly if the latencies of the resource in the
window add up to more than a word can say. -/
theorem overflows_iff (h : (s.seriesAt r 0).Tidy s.grid.slotMs) (hstop : stop < Word.size) :
    s.overflows r start stop = true ↔
      Word.size ≤ ∑ place ∈ Finset.Ico start stop, (s.seriesAt r 0).latencyAt place := by
  unfold overflows overflowsOf seriesAt at *
  cases hr : s.get? r with
  | some x =>
    rw [hr] at h
    exact h.overflows_iff s.grid.slotMs_pos hstop
  | none =>
    rw [Option.getD_none, Series.sum_latencyAt_new]
    exact iff_of_false Bool.false_ne_true (by decide)

/-- A window whose latencies stay within the words holds no other in which they leave them. -/
theorem overflows_of_le (h : (s.seriesAt r 0).Tidy s.grid.slotMs) (hstop : stop < Word.size)
    (hfits : s.overflows r start stop = false) {start' stop' : Nat} (hstart : start ≤ start')
    (hle : stop' ≤ stop) : s.overflows r start' stop' = false := by
  have hsum : ∑ place ∈ Finset.Ico start stop, (s.seriesAt r 0).latencyAt place < Word.size := by
    rw [← Nat.not_le, ← overflows_iff h hstop, hfits]
    exact Bool.false_ne_true
  rw [← Bool.not_eq_true, overflows_iff h (Nat.lt_of_le_of_lt hle hstop), Nat.not_le]
  refine Nat.lt_of_le_of_lt ?_ hsum
  exact Finset.sum_le_sum_of_subset (Finset.Ico_subset_Ico hstart hle)

/-- A window that a build with checks does give has the exact sum of the latencies for its total. -/
theorem totalLatency_window (h : (s.seriesAt r 0).Tidy s.grid.slotMs) (hstop : stop < Word.size)
    (hfits : s.overflows r start stop = false) :
    (s.window r start stop).totalLatency =
      ∑ place ∈ Finset.Ico start stop, (s.seriesAt r 0).latencyAt place := by
  unfold overflows overflowsOf at hfits
  unfold window windowOf seriesAt at *
  cases hr : s.get? r with
  | some x =>
    rw [hr] at h hfits
    exact h.totalLatency_aggregate s.grid.slotMs_pos hstop hfits
  | none =>
    rw [Option.getD_none, Series.sum_latencyAt_new]
    rfl

end StatStore
end Floodgate
