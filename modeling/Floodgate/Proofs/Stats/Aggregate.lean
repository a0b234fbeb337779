import Floodgate.Proofs.Stats.Slots
import Mathlib.Algebra.BigOperators.Group.Finset.Basic
import Mathlib.Algebra.GroupWithZero.Nat
import Mathlib.Order.Interval.Finset.Nat

/-!
# What a window holds

A window is summed up in one of two ways: place by place, or from all slots at hand. Which of them
is taken depends on how many slots there are, so a statement about windows must not. Here both are
shown to find the same slots (`lookUp_perm_scanned`), as long as slots lie at multiples of the
slot length and the window ends at a word. The places that are looked up begin at the first multiple
of the slot length; where no word can hold that, nothing is looked up, and no slot lies there.

`count_aggregate` is what comes of it: the counters of a window are the sums of the counters of its
places. From there on slots are no longer spoken of, and neither is the order of anything.
-/

set_option autoImplicit false

namespace Floodgate

/-! ## Sums over tables -/

namespace Table

variable {α : Type}

/-- Summing up the values whose keys lie in a range is summing up over the range. -/
theorem sum_filter_range (t : Table Nat α) (val : α → Nat) (start stop : Nat) :
    ((t.filter fun k _ => start ≤ k && k < stop).values.map val).sum =
      ∑ k ∈ Finset.Ico start stop, ((t.get? k).map val).getD 0 := by
  let within := t.filter fun k _ => start ≤ k && k < stop
  have hmem : ∀ e ∈ within.entries, t.get? e.1 = some e.2 ∧ start ≤ e.1 ∧ e.1 < stop := by
    intro e he
    have hget : within.get? e.1 = some e.2 := (within.mem_entries_iff e.1 e.2).mp he
    rw [get?_filter] at hget
    obtain ⟨hget, hrange⟩ := Option.filter_eq_some_iff.mp hget
    exact ⟨hget, by simpa using hrange⟩
  -- The range has places with no entry, but these add nothing.
  have hsub : within.keys.toFinset ⊆ Finset.Ico start stop := by
    intro k hk
    obtain ⟨e, he, rfl⟩ := List.mem_map.mp (List.mem_toFinset.mp hk)
    exact Finset.mem_Ico.mpr (hmem e he).2
  have hzero : ∀ k ∈ Finset.Ico start stop, k ∉ within.keys.toFinset →
      ((t.get? k).map val).getD 0 = 0 := by
    intro k hk hno
    cases hget : t.get? k with
    | none => rfl
    | some a =>
      have hin : (within.get? k).isSome := by
        simp [within, get?_filter, hget, Finset.mem_Ico.mp hk, Option.filter]
      exact absurd (List.mem_toFinset.mpr ((within.mem_keys_iff k).mpr hin)) hno
  have hkeys : within.keys.Nodup := within.nodup
  rw [← Finset.sum_subset hsub hzero, List.sum_toFinset _ hkeys, values, keys, List.map_map,
    List.map_map]
  refine congrArg List.sum (List.map_congr_left fun e he => ?_)
  simp [(hmem e he).1]

end Table

/-! ## Windows -/

theorem Window.count_mergeAll (slots : List Slot) (o : Outcome) :
    ∀ w : Window, (w.mergeAll slots).tally.count o =
      w.tally.count o + (slots.map fun slot => slot.tally.count o).sum := by
  induction slots with
  | nil => exact fun w => rfl
  | cons slot slots ih =>
    intro w
    have hmerge : (w.merge slot).tally.count o = w.tally.count o + slot.tally.count o :=
      Tally.count_add _ _ o
    have hrest := ih (w.merge slot)
    simp only [mergeAll, List.foldl_cons, List.map_cons, List.sum_cons] at hrest ⊢
    omega

/-- Merging leaves a window its range. -/
theorem Window.range_mergeAll (slots : List Slot) :
    ∀ w : Window, (w.mergeAll slots).start = w.start ∧ (w.mergeAll slots).stop = w.stop := by
  induction slots with
  | nil => exact fun w => ⟨rfl, rfl⟩
  | cons slot slots ih => exact fun w => ih (w.merge slot)

namespace Series

variable {slotMs : Nat} {s : Series}

/-! ## The places of a window -/

theorem divCeil_mul_le_iff {a b k : Nat} (hb : 0 < b) :
    Word.divCeil a b * b ≤ k * b ↔ a ≤ k * b := by
  rw [Nat.mul_le_mul_right_iff hb, Word.divCeil, Nat.div_le_iff_le_mul_add_pred hb, Nat.mul_comm b k]
  omega

theorem lt_divCeil_iff {a b i : Nat} (hb : 0 < b) : i < Word.divCeil a b ↔ i * b < a := by
  have h := divCeil_mul_le_iff (a := a) (k := i) hb
  rw [Nat.mul_le_mul_right_iff hb] at h
  omega

theorem placeCount_eq_succ {place stop : Nat} (hpos : 0 < slotMs) (h : place < stop) :
    placeCount place stop slotMs = placeCount (place + slotMs) stop slotMs + 1 := by
  have hsub : stop - (place + slotMs) = stop - place - slotMs := Nat.sub_add_eq _ _ _
  rw [placeCount, placeCount, hsub]
  refine eq_of_forall_lt_iff fun i => ?_
  rw [lt_divCeil_iff hpos]
  cases i with
  | zero => omega
  | succ i =>
    rw [Nat.add_lt_add_iff_right, lt_divCeil_iff hpos, Nat.succ_mul]
    omega

theorem placeCount_eq_zero {place stop : Nat} (hpos : 0 < slotMs) (h : stop ≤ place) :
    placeCount place stop slotMs = 0 := by
  rw [placeCount, Nat.sub_eq_zero_of_le h, Word.divCeil, Nat.div_eq_of_lt (by omega)]

/-- The slots at so many places, from the first on. -/
def lookedUp (s : Series) (first count slotMs : Nat) : List Slot :=
  (List.range count).filterMap fun i => s.slots.get? (first + i * slotMs)

@[simp] theorem lookedUp_zero (s : Series) (first slotMs : Nat) : s.lookedUp first 0 slotMs = [] :=
  rfl

theorem lookedUp_succ (s : Series) (first count slotMs : Nat) :
    s.lookedUp first (count + 1) slotMs =
      (s.slots.get? first).toList ++ s.lookedUp (first + slotMs) count slotMs := by
  have hnext : ∀ i, first + (i + 1) * slotMs = first + slotMs + i * slotMs := by
    intro i
    rw [Nat.succ_mul]
    omega
  have hfirst : first + 0 * slotMs = first := by omega
  rw [lookedUp, List.range_succ_eq_map, List.filterMap_cons, List.filterMap_map, lookedUp]
  simp only [Function.comp_def, Nat.succ_eq_add_one, hnext, hfirst]
  cases s.slots.get? first <;> rfl

/-- Looking up place by place stops where it should: before the end of the window, and before the
end of the words. -/
theorem lookUp_eq_lookedUp (hpos : 0 < slotMs) {stop : Nat} (hstop : stop < Word.size)
    (place : Nat) :
    s.lookUp stop slotMs place = s.lookedUp place (placeCount place stop slotMs) slotMs := by
  induction place using lookUp.induct stop slotMs with
  | case1 place h ih =>
    rw [lookUp, dif_pos h, placeCount_eq_succ hpos h.2, lookedUp_succ]
    split
    · rename_i next hnext
      rw [ih next hnext, Word.eq_add_of_add? hnext]
    · -- no word holds the next place, and the window ends before it
      rename_i hnext
      have hbeyond : stop ≤ place + slotMs := hstop.le.trans (Word.add?_eq_none_iff.mp hnext)
      rw [placeCount_eq_zero hpos hbeyond, lookedUp_zero]
  | case2 place h =>
    rw [lookUp, dif_neg h, placeCount_eq_zero hpos (by omega), lookedUp_zero]

/-- The places that are looked up are the multiples of the slot length in the window. -/
theorem exists_place_iff {start stop place : Nat} (hpos : 0 < slotMs) (hstop : stop < Word.size)
    (hplace : slotMs ∣ place) :
    (∃ i < placeCount (firstPlace start slotMs) stop slotMs,
      firstPlace start slotMs + i * slotMs = place) ↔ start ≤ place ∧ place < stop := by
  obtain ⟨k, rfl⟩ := hplace
  rw [Nat.mul_comm slotMs k]
  have hceil := divCeil_mul_le_iff (a := start) (k := k) hpos
  have hgreatest : stop ≤ Word.greatest := Nat.le_of_lt_succ hstop
  simp only [placeCount, lt_divCeil_iff hpos]
  by_cases hword : Word.divCeil start slotMs * slotMs ≤ Word.greatest
  · have hfirst : firstPlace start slotMs = Word.divCeil start slotMs * slotMs :=
      Nat.min_eq_left hword
    rw [hfirst]
    constructor
    · rintro ⟨i, hi, hk⟩
      omega
    · rintro ⟨hstart, hk⟩
      have hle : Word.divCeil start slotMs ≤ k :=
        Nat.le_of_mul_le_mul_right (hceil.mpr hstart) hpos
      refine ⟨k - Word.divCeil start slotMs, ?_, ?_⟩ <;> rw [Nat.sub_mul] <;> omega
  · -- the first multiple is beyond all words, and so beyond the window
    have hfirst : firstPlace start slotMs = Word.greatest :=
      Nat.min_eq_right (Nat.le_of_not_le hword)
    rw [hfirst]
    constructor
    · rintro ⟨i, hi, -⟩
      omega
    · rintro ⟨hstart, hk⟩
      have := hceil.mpr hstart
      omega

section Found

variable (haligned : ∀ {place slot}, s.slots.get? place = some slot → slotMs ∣ place)
include haligned

/-- **Both ways of reading a window find the same slots.** Only the order differs, and merging does
not see the order. -/
theorem lookUp_perm_scanned (hpos : 0 < slotMs) {start stop : Nat} (hstop : stop < Word.size) :
    (s.lookUp stop slotMs (firstPlace start slotMs)).Perm (s.scanned start stop) := by
  rw [lookUp_eq_lookedUp hpos hstop]
  generalize hfirst : firstPlace start slotMs = first
  generalize hcount : placeCount first stop slotMs = count
  -- the same lists, with the places beside the slots: so they have no repetitions
  let asked := (List.range count).filterMap fun i =>
    (s.slots.get? (first + i * slotMs)).map fun slot => (first + i * slotMs, slot)
  let picked := (s.slots.filter fun place _ => start ≤ place && place < stop).entries
  have hasked : s.lookedUp first count slotMs = asked.map Prod.snd := by
    simp only [lookedUp, asked, List.map_filterMap]
    congr 1
    funext i
    cases s.slots.get? (first + i * slotMs) <;> rfl
  have hnodup : asked.Nodup := by
    refine List.Nodup.filterMap (fun i j e hi hj => ?_) List.nodup_range
    obtain ⟨slot, -, rfl⟩ := Option.map_eq_some_iff.mp hi
    obtain ⟨slot', -, hj⟩ := Option.map_eq_some_iff.mp hj
    exact (Nat.eq_of_mul_eq_mul_right hpos (Nat.add_left_cancel (congrArg Prod.fst hj))).symm
  have hmem : ∀ e, e ∈ asked ↔ e ∈ picked := by
    rintro ⟨place, slot⟩
    have hpicked : (place, slot) ∈ picked ↔
        s.slots.get? place = some slot ∧ start ≤ place ∧ place < stop := by
      rw [Table.mem_entries_iff, Table.get?_filter, Option.filter_eq_some_iff]
      simp
    rw [hpicked]
    simp only [asked, List.mem_filterMap, List.mem_range, Option.map_eq_some_iff, Prod.mk.injEq]
    constructor
    · rintro ⟨i, hi, slot', hget, rfl, rfl⟩
      refine ⟨hget, (exists_place_iff hpos hstop (haligned hget)).mp ⟨i, ?_, by rw [hfirst]⟩⟩
      rw [hfirst, hcount]
      exact hi
    · rintro ⟨hget, hrange⟩
      obtain ⟨i, hi, hplace⟩ := (exists_place_iff hpos hstop (haligned hget)).mpr hrange
      rw [hfirst] at hi hplace
      rw [hcount] at hi
      exact ⟨i, hi, slot, by rw [hplace]; exact hget, hplace, rfl⟩
  rw [hasked]
  exact ((List.perm_ext_iff_of_nodup hnodup
    (List.Nodup.of_map _ (Table.nodup _))).mpr hmem).map Prod.snd

theorem slotsIn_perm_scanned (hpos : 0 < slotMs) {start stop : Nat} (hstop : stop < Word.size) :
    (s.slotsIn start stop slotMs).Perm (s.scanned start stop) := by
  unfold slotsIn
  dsimp only
  split
  · exact lookUp_perm_scanned haligned hpos hstop
  · exact List.Perm.refl _

end Found

/-- **The counters of a window are the sums of the counters of its places.** -/
theorem Tidy.count_aggregate (h : s.Tidy slotMs) (hpos : 0 < slotMs) {start stop : Nat}
    (hstop : stop < Word.size) (o : Outcome) :
    (s.aggregate start stop slotMs).tally.count o =
      ∑ place ∈ Finset.Ico start stop, s.countAt place o := by
  have hempty : (Window.empty start stop).tally.count o = 0 := by cases o <;> rfl
  have hmax : max slotMs 1 = slotMs := Nat.max_eq_left hpos
  rw [aggregate, hmax, Window.count_mergeAll, hempty, Nat.zero_add,
    ((slotsIn_perm_scanned h.aligned hpos hstop).map _).sum_eq, scanned, Table.sum_filter_range]
  rfl

end Series
end Floodgate
