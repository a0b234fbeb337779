import Floodgate.Proofs.Stats.Log
import Mathlib.Data.Finset.Card

/-!
# The slots that are kept

A slot is dropped when a slot comes into being that is a full retention span newer, and it never
comes back if the writes of its resource are made in the order of time. So of the slots that the log
has for a resource those are there that lie within the span behind the newest, and no others
(`Series.Keeps`): a write puts its own slot at the front, and what the span moves past is what it
drops (`Keeps.write`).

Slots begin at multiples of the slot length, and the span is no longer than so many of them as are
to be kept. So there are never more (`Series.size_slots_le`), and that bounds the memory of a
resource.
-/

set_option autoImplicit false

namespace Floodgate

/-! ## When a resource was written -/

/-- The times at which a resource was written, first to last. -/
def writtenTimes (r : Resource) (log : List SlotWrite) : List Nat :=
  (log.filter (·.resource = r)).map SlotWrite.time

theorem writtenTimes_append (r : Resource) (log : List SlotWrite) (w : SlotWrite) :
    writtenTimes r (log ++ [w]) =
      writtenTimes r log ++ if w.resource = r then [w.time] else [] := by
  by_cases hw : w.resource = r <;> simp [writtenTimes, hw]

theorem newestWritten_le {g : Grid} {r : Resource} {log : List SlotWrite} {bound : Nat}
    (h : ∀ t ∈ writtenTimes r log, g.floor t ≤ bound) : newestWritten g r log ≤ bound := by
  induction log using List.reverseRecOn with
  | nil => exact Nat.zero_le bound
  | append_singleton log w ih =>
    rw [writtenTimes_append] at h
    have hrest := ih fun t ht => h t (List.mem_append_left _ ht)
    rw [newestWritten_append]
    split
    · rename_i hr
      exact Nat.max_le.mpr ⟨hrest, h w.time (by simp [hr])⟩
    · exact hrest

namespace Series

variable {g : Grid} {r : Resource} {log : List SlotWrite} {x x' : Series}

/-! ## How many slots there are -/

/-- In a span there are no more multiples of the slot length than it is slots long. -/
theorem size_slots_le {slotMs retained : Nat} (h : x.Tidy slotMs) (hpos : 0 < slotMs)
    (hspan : ∀ place, (x.slots.get? place).isSome → x.newest < place + retained * slotMs) :
    x.slots.size ≤ retained := by
  have hheld : ∀ {place}, place ∈ x.slots.keys.toFinset →
      ∃ i, place = slotMs * i ∧ i ≤ x.newest / slotMs ∧ x.newest / slotMs < i + retained := by
    intro place hplace
    have hsome : (x.slots.get? place).isSome :=
      (x.slots.mem_keys_iff place).mp (List.mem_toFinset.mp hplace)
    obtain ⟨slot, hslot⟩ := Option.isSome_iff_exists.mp hsome
    obtain ⟨i, rfl⟩ := h.aligned hslot
    have hle := h.le_newest hslot
    have hlt := hspan _ hsome
    refine ⟨i, rfl, (Nat.le_div_iff_mul_le hpos).mpr (by rwa [Nat.mul_comm]), ?_⟩
    rw [Nat.div_lt_iff_lt_mul hpos, Nat.add_mul, Nat.mul_comm i]
    exact hlt
  -- no two slots lie the same number of slots behind the newest
  have hcard : x.slots.keys.toFinset.card ≤ (Finset.range retained).card := by
    refine Finset.card_le_card_of_injOn (fun place => x.newest / slotMs - place / slotMs)
      (fun place hplace => ?_) fun place hplace other hother heq => ?_
    · obtain ⟨i, rfl, hle, hlt⟩ := hheld hplace
      simp only [Nat.mul_div_cancel_left i hpos, Finset.coe_range, Set.mem_Iio]
      omega
    · obtain ⟨i, rfl, hi, -⟩ := hheld hplace
      obtain ⟨j, rfl, hj, -⟩ := hheld hother
      simp only [Nat.mul_div_cancel_left i hpos, Nat.mul_div_cancel_left j hpos] at heq
      have hij : i = j := by omega
      rw [hij]
  have hkeys : x.slots.keys.toFinset.card = x.slots.size :=
    (List.toFinset_card_of_nodup x.slots.nodup).trans (List.length_map ..)
  rwa [hkeys, Finset.card_range] at hcard

/-! ## Which slots there are -/

/-- Of the slots that were written, a series holds those within the retention span behind the
newest. -/
structure Keeps (g : Grid) (r : Resource) (log : List SlotWrite) (x : Series) : Prop where
  tidy : x.Tidy g.slotMs
  newest_eq : x.newest = newestWritten g r log
  held_iff : ∀ place, (x.slots.get? place).isSome ↔
    (∃ t ∈ writtenTimes r log, g.floor t = place) ∧ x.newest < place + g.retentionMs

theorem Keeps.congr (h : x.Keeps g r log) (hslots : x'.slots = x.slots)
    (hnewest : x'.newest = x.newest) : x'.Keeps g r log where
  tidy := h.tidy.congr hslots hnewest
  newest_eq := hnewest.trans h.newest_eq
  held_iff place := by
    rw [hslots, hnewest]
    exact h.held_iff place

theorem keeps_new (g : Grid) (r : Resource) (now : Nat) : (Series.new now).Keeps g r [] where
  tidy := tidy_of_empty rfl
  newest_eq := rfl
  held_iff place := by simp [Series.new, writtenTimes]

/-- What is written elsewhere is nothing to a series. -/
theorem Keeps.append (h : x.Keeps g r log) {w : SlotWrite} (hw : w.resource ≠ r) :
    x.Keeps g r (log ++ [w]) where
  tidy := h.tidy
  newest_eq := by rw [newestWritten_append, if_neg hw, h.newest_eq]
  held_iff place := by
    rw [writtenTimes_append, if_neg hw, List.append_nil]
    exact h.held_iff place

/-- A write that is not late puts its slot at the front of those that are kept. -/
theorem Keeps.write (h : x.Keeps g r log) {f : Slot → Slot} {w : SlotWrite} (hr : w.resource = r)
    (hf : ∀ slot, (f slot).start = slot.start) (hlate : x.newest ≤ g.floor w.time) :
    (x.updateSlot (g.floor w.time) g.retentionMs f).Keeps g r (log ++ [w]) where
  tidy := h.tidy.updateSlot g.retentionMs_pos (g.dvd_floor w.time) hf
  newest_eq := by rw [h.tidy.newest_updateSlot, newestWritten_append, if_pos hr, h.newest_eq]
  held_iff place := by
    have hpos := g.retentionMs_pos
    rw [h.tidy.newest_updateSlot, h.tidy.get?_updateSlot hpos hf, Nat.max_eq_right hlate,
      writtenTimes_append, if_pos hr]
    by_cases hplace : place = g.floor w.time
    · subst hplace
      simp [hpos]
    · have hwritten : (∃ t ∈ writtenTimes r log ++ [w.time], g.floor t = place) ↔
          ∃ t ∈ writtenTimes r log, g.floor t = place := by
        simp [or_and_right, exists_or, Ne.symm hplace]
      rw [if_neg hplace, hwritten]
      split
      · rename_i hdropped
        exact iff_of_false (by simp) fun hkept => by omega
      · -- as far as the span has moved, it has not moved past this slot
        rename_i hkept
        rw [h.held_iff]
        refine and_congr_right fun _ => ?_
        omega

end Series

/-! ## Calls and runs -/

namespace StatStore

variable {s : StatStore} {r : Resource} {log : List SlotWrite}

/-- Of the slots that were written, a store holds those of a resource that are within the span. -/
structure Keeps (r : Resource) (log : List SlotWrite) (s : StatStore) : Prop where
  steady : s.Steady
  series : ∀ t, (s.seriesAt r t).Keeps s.grid r log

theorem keeps_new (slotMs retained : Nat) (r : Resource) :
    (StatStore.new slotMs retained).Keeps r [] where
  steady _ hsome := by cases hsome
  series := Series.keeps_new _ r

/-- **A call keeps what is within the span**, if it does not write the resource late. -/
theorem Keeps.call (h : s.Keeps r log) (c : StatCall)
    (hlate : ∀ w, c.write? s = some w → w.resource = r →
      newestWritten s.grid r log ≤ s.grid.floor w.time) :
    (s.call c).Keeps r (log ++ (c.write? s).toList) where
  steady := h.steady.call c
  series t := by
    rw [s.grid_call c]
    cases hw : c.write? s with
    | none =>
      obtain ⟨hslots, hnewest⟩ := slots_call_of_write?_eq_none hw r t
      rw [Option.toList_none, List.append_nil]
      exact (h.series t).congr hslots hnewest
    | some w =>
      obtain ⟨x, f, hchange, hview⟩ := h.steady.call_of_write? hw
      rw [seriesAt_of_get? hview, Option.toList_some]
      split
      · rename_i hr
        subst hr
        have hx := (h.series w.time).congr hchange.slots hchange.newest
        exact hx.write rfl hchange.start (hx.newest_eq ▸ hlate w hw rfl)
      · rename_i hr
        exact (h.series t).append fun e => hr e.symm

end StatStore

namespace StatRun

/-- **After a run there is what is within the span**, if the resource is written in the order of
time. -/
theorem keeps_after (slotMs retained : Nat) (calls : List StatCall) (r : Resource) :
    let run := (start slotMs retained).after calls
    (writtenTimes r run.log).Pairwise (· ≤ ·) → run.store.Keeps r run.log := by
  induction calls using List.reverseRecOn with
  | nil => exact fun _ => StatStore.keeps_new slotMs retained r
  | append_singleton calls c ih =>
    intro run horder
    simp only [run, after_concat] at horder ⊢
    generalize (start slotMs retained).after calls = before at ih horder ⊢
    have hsorted : (writtenTimes r (before.log ++ (c.write? before.store).toList)).Pairwise
      (· ≤ ·) := horder
    cases hw : c.write? before.store with
    | none =>
      rw [hw, Option.toList_none, List.append_nil] at hsorted
      exact (ih hsorted).call c fun w hw' => by rw [hw] at hw'; cases hw'
    | some w =>
      rw [hw, Option.toList_some, writtenTimes_append] at hsorted
      obtain ⟨hbefore, -, hle⟩ := List.pairwise_append.mp hsorted
      refine (ih hbefore).call c fun w' hw' hr => newestWritten_le fun t ht => ?_
      cases hw.symm.trans hw'
      rw [if_pos hr] at hle
      exact before.store.grid.floor_mono (hle t ht w.time (List.mem_singleton_self _))

/-- What is written is written at the times of the calls. -/
theorem writtenTimes_sublist (slotMs retained : Nat) (calls : List StatCall) (r : Resource) :
    (writtenTimes r ((start slotMs retained).after calls).log).Sublist
      (calls.filterMap StatCall.time?) := by
  induction calls using List.reverseRecOn with
  | nil => exact .refl _
  | append_singleton calls c ih =>
    rw [after_concat, List.filterMap_append]
    generalize (start slotMs retained).after calls = before at ih ⊢
    show (writtenTimes r (before.log ++ (c.write? before.store).toList)).Sublist _
    cases hw : c.write? before.store with
    | none =>
      rw [Option.toList_none, List.append_nil]
      exact ih.trans (List.sublist_append_left _ _)
    | some w =>
      rw [Option.toList_some, writtenTimes_append]
      refine ih.append ?_
      rw [List.filterMap_cons, StatCall.time?_of_write? hw]
      split
      · exact .refl _
      · exact List.nil_sublist _

/-- **The slots that are kept.** After any calls but evictions, those that write a resource being made
in the order of time, there are no more slots of it than are to be kept. Each lies in the place of its
own start, at a multiple of the slot length. And there are exactly those that were written and are no
newer than the newest, nor older than that by the retention span or more; there is no such limit as
long as time itself is shorter than the span. -/
theorem slots_are_kept_within_span (slotMs retained : Nat) (calls : List StatCall) (r : Resource) :
    let run := (start slotMs retained).after calls
    let g := run.store.grid
    let x := run.store.seriesAt r 0
    let newest := newestWritten g r run.log
    (writtenTimes r run.log).Pairwise (· ≤ ·) →
      x.slots.size ≤ g.retained ∧ x.newest = newest ∧
      (∀ place slot, x.slots.get? place = some slot → slot.start = place ∧ g.slotMs ∣ place) ∧
      ∀ place, (x.slots.get? place).isSome ↔
        (∃ t ∈ writtenTimes r run.log, g.floor t = place) ∧
          newest < place + min (g.retained * g.slotMs) Word.greatest ∧ place ≤ newest := by
  intro run g x newest horder
  have hkeeps : x.Keeps g r run.log := (keeps_after slotMs retained calls r horder).series 0
  have hnewest : x.newest = newest := hkeeps.newest_eq
  refine ⟨Series.size_slots_le hkeeps.tidy g.slotMs_pos fun place hsome => ?_, hnewest,
    fun place slot hslot => ⟨hkeeps.tidy.placed hslot, hkeeps.tidy.aligned hslot⟩, fun place => ?_⟩
  · exact ((hkeeps.held_iff place).mp hsome).2.trans_le
      (Nat.add_le_add_left (Nat.min_le_left _ _) place)
  · rw [← hnewest]
    constructor
    · intro hsome
      obtain ⟨hwritten, hspan⟩ := (hkeeps.held_iff place).mp hsome
      obtain ⟨slot, hslot⟩ := Option.isSome_iff_exists.mp hsome
      exact ⟨hwritten, hspan, hkeeps.tidy.le_newest hslot⟩
    · rintro ⟨hwritten, hspan, -⟩
      exact (hkeeps.held_iff place).mpr ⟨hwritten, hspan⟩

/-- Three slots are kept, and five were written. The write of the other resource is out of order, and
comes to nothing here. -/
theorem slots_are_kept_within_span_five :
    let r := Resource.service "s"
    let calls := [StatCall.incr r .completed 0, .tryStart r 1 1200, .incr (.service "t") .error 9000,
      .acquireUnbounded r 1500, .recordLatency r 7 2100, .observe ⟨r, 0⟩ 3400,
      .incr (.service "t") .error 100, .recordState r .open 4999]
    let run := (StatRun.start 1000 3).after calls
    let x := run.store.seriesAt r 0
    x.newest = 4000 ∧ x.slots.size ≤ 3 ∧ (x.slots.get? 1000).isSome = false ∧
      (x.slots.get? 2000).isSome = true := by
  intro r calls run x
  obtain ⟨hsize, hnewest, -, hheld⟩ :=
    slots_are_kept_within_span 1000 3 calls r (by decide +kernel)
  refine ⟨hnewest.trans (by decide +kernel), hsize.trans (by decide +kernel), ?_,
    (hheld 2000).mpr (by decide +kernel)⟩
  refine Bool.eq_false_iff.mpr fun hsome => ?_
  exact absurd ((hheld 1000).mp hsome).2 (by decide +kernel)

end StatRun
end Floodgate
