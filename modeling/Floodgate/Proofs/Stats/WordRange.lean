import Floodgate.Proofs.Stats.Log

/-!
# Times at the end of the words

Slots may be of any length, so a slot may be longer than all the time there has been. Nevertheless
its end is a word for every time that a clock of signed words gives (`Grid.floor_add_slotMs_lt`): a
slot that began at all is no longer than the time at which it began, and otherwise it begins at
zero.

The step from one place to the next, when slots are looked up, may leave the words, and the lookup
stops there. Which places a lookup asks for, and in which order, is told by a list computed beside
it (`Series.askedPlaces`). That list rises, stays in the window, and is no longer than the count of
places by which the lookup was preferred to a scan.
-/

set_option autoImplicit false

namespace Floodgate

namespace Grid

/-- **A slot that begins in the first half of the words ends in the words**, whatever its length. -/
theorem floor_add_slotMs_lt (g : Grid) (hslot : g.slotMs < Word.size) {now : Nat}
    (hnow : now < 2 ^ 63) : g.floor now + g.slotMs < Word.size := by
  have hsize : Word.size = 2 ^ 63 + 2 ^ 63 := rfl
  rcases Nat.lt_or_ge now g.slotMs with hshort | hlong
  · have hzero : g.floor now = 0 := by rw [floor_eq, Nat.div_eq_of_lt hshort, Nat.mul_zero]
    omega
  · have := g.floor_le now
    omega

/-- The slot before that of a time, or the first one, ends in the words. -/
theorem floor_sub_slotMs_add_lt (g : Grid) (hslot : g.slotMs < Word.size) {now : Nat}
    (hnow : now < Word.size) : g.floor now - g.slotMs + g.slotMs < Word.size := by
  have := g.floor_le now
  omega

end Grid

namespace Series

variable {stop slotMs place : Nat}

/-! ## The places that are asked for -/

/-- The places that a lookup asks for, first to last. -/
@[semireducible] def askedPlaces (stop slotMs place : Nat) : List Nat :=
  if _h : 0 < slotMs ∧ place < stop then
    place ::
      match _hnext : Word.add? place slotMs with
      | some next => askedPlaces stop slotMs next
      | none => []
  else []
termination_by stop - place
decreasing_by
  have hnext := Word.eq_add_of_add? _hnext
  omega

theorem askedPlaces_of_lt (h : 0 < slotMs ∧ place < stop) :
    askedPlaces stop slotMs place =
      place :: ((Word.add? place slotMs).map (askedPlaces stop slotMs)).getD [] := by
  rw [askedPlaces, dif_pos h]
  split <;> simp [*]

theorem lookUp_of_lt (s : Series) (h : 0 < slotMs ∧ place < stop) :
    s.lookUp stop slotMs place =
      (s.slots.get? place).toList ++
        ((Word.add? place slotMs).map (s.lookUp stop slotMs)).getD [] := by
  rw [lookUp, dif_pos h]
  split <;> simp [*]

/-- **A lookup finds the slots at the places that it asks for**, in their order. -/
theorem lookUp_eq_filterMap_askedPlaces (s : Series) (stop slotMs place : Nat) :
    s.lookUp stop slotMs place = (askedPlaces stop slotMs place).filterMap s.slots.get? := by
  induction place using lookUp.induct stop slotMs with
  | case1 place h ih =>
    have hrest : ((Word.add? place slotMs).map (s.lookUp stop slotMs)).getD [] =
        (((Word.add? place slotMs).map (askedPlaces stop slotMs)).getD []).filterMap
          s.slots.get? := by
      cases hnext : Word.add? place slotMs with
      | none => rfl
      | some next => exact ih next hnext
    rw [s.lookUp_of_lt h, askedPlaces_of_lt h, List.filterMap_cons, hrest]
    cases s.slots.get? place <;> rfl
  | case2 place h => rw [lookUp, dif_neg h, askedPlaces, dif_neg h, List.filterMap_nil]

/-- **A lookup steps from place to place without ever starting again at zero.** -/
theorem askedPlaces_eq (hpos : 0 < slotMs) (hstop : stop < Word.size) (place : Nat) :
    askedPlaces stop slotMs place =
      (List.range (placeCount place stop slotMs)).map fun i => place + i * slotMs := by
  induction place using askedPlaces.induct stop slotMs with
  | case1 place h ih =>
    have hnext : ∀ i, place + (i + 1) * slotMs = place + slotMs + i * slotMs := by
      intro i
      rw [Nat.succ_mul]
      omega
    rw [askedPlaces_of_lt h, placeCount_eq_succ hpos h.2, List.range_succ_eq_map, List.map_cons,
      List.map_map, Nat.zero_mul, Nat.add_zero]
    simp only [Function.comp_def, Nat.succ_eq_add_one, hnext]
    congr 1
    cases hadd : Word.add? place slotMs with
    | some next =>
      show askedPlaces stop slotMs next = _
      rw [ih next hadd, Word.eq_add_of_add? hadd]
    | none =>
      -- no word holds the next place, and the window ends before it
      have hbeyond : stop ≤ place + slotMs := hstop.le.trans (Word.add?_eq_none_iff.mp hadd)
      rw [placeCount_eq_zero hpos hbeyond]
      rfl
  | case2 place h =>
    rw [askedPlaces, dif_neg h, placeCount_eq_zero hpos (by omega)]
    rfl

/-- The places that are asked for lie in the window, the first one being the least of them. -/
theorem mem_askedPlaces (hpos : 0 < slotMs) (hstop : stop < Word.size) {p : Nat}
    (h : p ∈ askedPlaces stop slotMs place) : place ≤ p ∧ p < stop := by
  rw [askedPlaces_eq hpos hstop] at h
  obtain ⟨i, hi, rfl⟩ := List.mem_map.mp h
  have hbefore := (lt_divCeil_iff hpos).mp (List.mem_range.mp hi)
  omega

theorem pairwise_askedPlaces (hpos : 0 < slotMs) (hstop : stop < Word.size) :
    (askedPlaces stop slotMs place).Pairwise (· < ·) := by
  rw [askedPlaces_eq hpos hstop, List.pairwise_map]
  refine List.pairwise_lt_range.imp fun hij => ?_
  exact Nat.add_lt_add_left (Nat.mul_lt_mul_of_pos_right hij hpos) _

theorem length_askedPlaces (hpos : 0 < slotMs) (hstop : stop < Word.size) :
    (askedPlaces stop slotMs place).length = placeCount place stop slotMs := by
  rw [askedPlaces_eq hpos hstop, List.length_map, List.length_range]

/-- No place that is asked for lies before the window: the first multiple does not, or no word
holds it and nothing is asked for. -/
theorem le_of_mem_askedPlaces {start p : Nat} (hpos : 0 < slotMs) (hstop : stop < Word.size)
    (h : p ∈ askedPlaces stop slotMs (firstPlace start slotMs)) : start ≤ p := by
  obtain ⟨hfirst, hbefore⟩ := mem_askedPlaces hpos hstop h
  have hceil : start ≤ Word.divCeil start slotMs * slotMs :=
    (divCeil_mul_le_iff hpos).mp (Nat.le_refl _)
  have hgreatest : stop ≤ Word.greatest := Nat.le_of_lt_succ hstop
  unfold firstPlace Word.mulSaturating at hfirst
  omega

/-- **How the slots of a window are found.** They are looked up if there are no more places to ask
for than slots, and picked from all slots otherwise. -/
theorem slotsIn_eq (s : Series) (start : Nat) (hpos : 0 < slotMs) (hstop : stop < Word.size) :
    s.slotsIn start stop slotMs =
      if (askedPlaces stop slotMs (firstPlace start slotMs)).length ≤ s.slots.size then
        (askedPlaces stop slotMs (firstPlace start slotMs)).filterMap s.slots.get?
      else s.scanned start stop := by
  rw [length_askedPlaces hpos hstop, ← lookUp_eq_filterMap_askedPlaces]
  rfl

end Series

end Floodgate
