import Floodgate.Proofs.Stats.Overflow
import Floodgate.Proofs.Stats.Present
import Floodgate.Stats.Cursor
import Mathlib.Algebra.BigOperators.Intervals
import Mathlib.Algebra.BigOperators.Ring.Finset

/-!
# Windows in succession

A cursor produces one window after the other until the next one would reach past the end. Here the
windows are counted beforehand: there are as many as whole windows fit between the slot of the first
time and the end, and each is the window of its own range (`Cursor.toList_eq`). Near the end of the
words a window ends where no word can say; it reaches past the end of the range as well, for that is
a word, and so it is not produced either.

Each window is the merge of the slots that begin in its range, however they are found. So nothing
hinges on how two windows that meet find theirs: slots are told apart by where they begin
(`Series.sum_within_succession`), and the counters of all windows sum up to those of one that covers
them all (`StatStore.windows_cover`).
-/

set_option autoImplicit false

namespace Floodgate

/-! ## Cursors -/

namespace Cursor

variable {c : Cursor}

/-- There is a next window as long as a whole one fits. What is left over at the end of the range
lies in no window. -/
theorem nextStop?_eq (hstop : c.stop < Word.size) :
    c.nextStop? =
      if 0 < (c.stop - c.next) / c.windowMs then some (c.next + c.windowMs) else none := by
  simp only [Nat.div_pos_iff, nextStop?, Word.add?]
  by_cases hzero : c.windowMs = 0
  · simp [hzero]
  · rw [if_neg hzero]
    by_cases hfits : c.next + c.windowMs ≤ c.stop
    · have hword : c.next + c.windowMs < Word.size := Nat.lt_of_le_of_lt hfits hstop
      have hwhole : 0 < c.windowMs ∧ c.windowMs ≤ c.stop - c.next := by omega
      rw [if_pos hword, if_pos hwhole]
      simp [hfits]
    · have hpast : ¬ (0 < c.windowMs ∧ c.windowMs ≤ c.stop - c.next) := by omega
      rw [if_neg hpast]
      split
      · simpa using hfits
      · rfl

/-- **The windows of a cursor**: as many as fit, one next to the other. -/
theorem toList_eq (s : StatStore) (c : Cursor) (hstop : c.stop < Word.size) :
    c.toList s = (List.range ((c.stop - c.next) / c.windowMs)).map fun i =>
      s.windowOf (c.series.bind s.held?) (c.next + i * c.windowMs)
        (c.next + (i + 1) * c.windowMs) := by
  -- by how many whole windows are left
  generalize hcount : (c.stop - c.next) / c.windowMs = count
  induction count generalizing c with
  | zero =>
    have hnone : c.nextStop? = none := by
      rw [nextStop?_eq hstop, hcount]
      rfl
    rw [toList]
    split
    · rename_i stop hsome
      rw [hnone] at hsome
      cases hsome
    · rfl
  | succ count ih =>
    have hwhole : 0 < c.windowMs ∧ c.windowMs ≤ c.stop - c.next :=
      Nat.div_pos_iff.mp (by omega)
    have hnext : c.nextStop? = some (c.next + c.windowMs) := by
      rw [nextStop?_eq hstop, hcount]
      rfl
    have hrest : (c.stop - (c.next + c.windowMs)) / c.windowMs = count := by
      have hstep := Nat.div_eq_sub_div hwhole.1 hwhole.2
      rw [Nat.sub_add_eq]
      omega
    -- the windows that are left are the next ones of the whole list
    have hshift : ∀ i, c.next + c.windowMs + i * c.windowMs = c.next + (i + 1) * c.windowMs := by
      intro i
      rw [Nat.succ_mul]
      omega
    rw [toList]
    split
    · rename_i stop hsome
      cases hnext.symm.trans hsome
      rw [ih { c with next := c.next + c.windowMs } hstop hrest, List.range_succ_eq_map,
        List.map_cons, List.map_map]
      simp only [Function.comp_def, Nat.succ_eq_add_one, hshift]
      simp
    · rename_i hnone
      rw [hnext] at hnone
      cases hnone

/-- Running a cursor for so many windows gives so many of its windows. -/
theorem take_eq (s : StatStore) (n : Nat) : ∀ c : Cursor, c.take s n = (c.toList s).take n := by
  induction n with
  | zero => exact fun c => rfl
  | succ n ih =>
    intro c
    rw [take, next?, toList]
    cases c.nextStop? with
    | none => rfl
    | some stop => exact congrArg _ (ih _)

end Cursor

/-! ## Slots in succession -/

namespace Series

variable {s : Series} {slotMs : Nat} {first middle stop : Nat}

/-- Of two ranges that meet, each slot lies in one. -/
theorem sum_within_consecutive (f : Slot → Nat) (hfirst : first ≤ middle) (hlast : middle ≤ stop) :
    ∑ slot ∈ s.within first stop, f slot =
      (∑ slot ∈ s.within first middle, f slot) + ∑ slot ∈ s.within middle stop, f slot := by
  have hdisjoint : Disjoint (s.within first middle) (s.within middle stop) := by
    refine Finset.disjoint_left.mpr fun slot hbefore hafter => ?_
    have hlt := (Finset.mem_filter.mp hbefore).2.2
    have hle := (Finset.mem_filter.mp hafter).2.1
    omega
  have hunion : s.within first stop = s.within first middle ∪ s.within middle stop := by
    ext slot
    simp only [within, Finset.mem_union, Finset.mem_filter, ← and_or_left]
    refine and_congr_right fun _ => ?_
    omega
  rw [hunion, Finset.sum_union hdisjoint]

/-- What adds up over two ranges that meet adds up over ranges of equal length, one next to the
other. -/
theorem sum_succession (total : Nat → Nat → Nat) (hempty : ∀ a, total a a = 0)
    (hmeet : ∀ {a b c : Nat}, a ≤ b → b ≤ c → total a c = total a b + total b c)
    (first windowMs count : Nat) :
    ∑ i ∈ Finset.range count, total (first + i * windowMs) (first + (i + 1) * windowMs) =
      total first (first + count * windowMs) := by
  induction count with
  | zero => rw [Nat.zero_mul, Nat.add_zero, hempty, Finset.sum_range_zero]
  | succ count ih =>
    have hle : first + count * windowMs ≤ first + (count + 1) * windowMs :=
      Nat.add_le_add_left (Nat.mul_le_mul_right _ (Nat.le_succ count)) first
    rw [Finset.sum_range_succ, ih, hmeet (Nat.le_add_right _ _) hle]

/-- Ranges in succession have each slot of the range they cover once. -/
theorem sum_within_succession (s : Series) (f : Slot → Nat) (first windowMs count : Nat) :
    ∑ i ∈ Finset.range count,
        ∑ slot ∈ s.within (first + i * windowMs) (first + (i + 1) * windowMs), f slot =
      ∑ slot ∈ s.within first (first + count * windowMs), f slot := by
  refine sum_succession (fun a b => ∑ slot ∈ s.within a b, f slot) (fun a => ?_)
    (fun hab hbc => sum_within_consecutive f hab hbc) first windowMs count
  have hnone : s.within a a = ∅ := Finset.filter_eq_empty_iff.mpr fun slot _ => by omega
  rw [hnone, Finset.sum_empty]

end Series

/-! ## The windows of a store -/

namespace StatStore

variable {s : StatStore}

theorem held?_handle? (s : StatStore) (r : Resource) :
    (s.series.handle? r).bind s.held? = s.get? r := by
  cases hr : s.series.handle? r with
  | none => exact ((s.series.handle?_eq_none_iff r).mp hr).symm
  | some h => exact Roster.get?_of_handle? hr

theorem windows_of_empty {start stop slots : Nat} (h : stop ≤ start ∨ slots = 0) (r : Resource) :
    s.windows r start stop slots = [] := by
  have hempty : s.cursor r start stop slots =
      { series := none, next := 0, stop := 0, windowMs := 0 } := by
    rw [cursor, if_pos (by simpa using h)]
  rw [windows, hempty, Cursor.toList_eq s _ (by decide)]
  rfl

/-- So many windows of a resource, the first beginning at `first`. -/
def succession (s : StatStore) (r : Resource) (first windowMs count : Nat) : List Window :=
  (List.range count).map fun i => s.window r (first + i * windowMs) (first + (i + 1) * windowMs)

theorem windows_eq_succession (s : StatStore) (r : Resource) {start stop slots : Nat}
    (hrange : start < stop) (hslots : slots ≠ 0) (hstop : stop < Word.size) :
    s.windows r start stop slots =
      s.succession r (s.grid.floor start) (Word.mulSaturating slots s.grid.slotMs)
        ((stop - s.grid.floor start) / Word.mulSaturating slots s.grid.slotMs) := by
  have hcursor : s.cursor r start stop slots = {
      series := s.series.handle? r
      next := s.grid.floor start
      stop := stop
      windowMs := Word.mulSaturating slots s.grid.slotMs } := by
    rw [cursor, if_neg (by simp [hslots, hrange])]
  rw [windows, hcursor, Cursor.toList_eq s _ hstop]
  simp only [held?_handle?]
  rfl

/-- However a range is run over, its windows are in succession, none of them being a succession as
well. -/
theorem exists_windows_eq_succession (s : StatStore) (r : Resource) {start stop : Nat} (slots : Nat)
    (hstart : start < Word.size) (hstop : stop < Word.size) :
    let first := s.grid.floor start
    let windowMs := Word.mulSaturating slots s.grid.slotMs
    ∃ count, s.windows r start stop slots = s.succession r first windowMs count ∧
      first + count * windowMs < Word.size ∧
      (0 < count → 0 < windowMs ∧ first + count * windowMs ≤ stop) := by
  intro first windowMs
  have hfirst : first ≤ start := s.grid.floor_le start
  by_cases hempty : stop ≤ start ∨ slots = 0
  · exact ⟨0, windows_of_empty hempty r, by omega, fun h => absurd h (Nat.lt_irrefl 0)⟩
  · obtain ⟨hrange, hslots⟩ : start < stop ∧ slots ≠ 0 := by omega
    have hlast := Nat.div_mul_le_self (stop - first) windowMs
    exact ⟨(stop - first) / windowMs, s.windows_eq_succession r hrange hslots hstop, by omega,
      fun h => ⟨(Nat.div_pos_iff.mp h).1, by omega⟩⟩

section Succession

variable {r : Resource} {first windowMs count : Nat}

@[simp] theorem length_succession (s : StatStore) (r : Resource) (first windowMs count : Nat) :
    (s.succession r first windowMs count).length = count := by
  rw [succession, List.length_map, List.length_range]

theorem isChain_succession (s : StatStore) (r : Resource) (first windowMs count : Nat) :
    (s.succession r first windowMs count).IsChain fun w next => w.stop = next.start := by
  rw [succession, List.isChain_map, List.isChain_range]
  intro i _
  rw [(s.range_window r _ _).2, (s.range_window r _ _).1]

theorem pairwise_succession (s : StatStore) (r : Resource) (first windowMs count : Nat) :
    (s.succession r first windowMs count).Pairwise fun w later => w.stop ≤ later.start := by
  rw [succession, List.pairwise_map]
  refine List.pairwise_lt_range.imp fun {i j} hlt => ?_
  rw [(s.range_window r _ _).2, (s.range_window r _ _).1]
  exact Nat.add_le_add_left (Nat.mul_le_mul_right _ hlt) first

/-- Windows in succession do not reach past the window that covers them. -/
theorem succession_stop_le (first windowMs : Nat) {i : Nat} (hi : i < count) :
    first + (i + 1) * windowMs ≤ first + count * windowMs :=
  Nat.add_le_add_left (Nat.mul_le_mul_right _ hi) first

theorem range_of_mem_succession (hpos : 0 < windowMs) {w : Window}
    (h : w ∈ s.succession r first windowMs count) :
    first ≤ w.start ∧ w.start < w.stop ∧ w.stop ≤ first + count * windowMs := by
  obtain ⟨i, hi, rfl⟩ := List.mem_map.mp h
  rw [(s.range_window r _ _).2, (s.range_window r _ _).1]
  refine ⟨Nat.le_add_right _ _, ?_, succession_stop_le first windowMs (List.mem_range.mp hi)⟩
  rw [Nat.succ_mul]
  omega

/-- The counters of windows in succession sum up to those of the window that covers them. -/
theorem Tidy.sum_count_succession (h : s.Tidy) (hstop : first + count * windowMs < Word.size)
    (o : Outcome) :
    ((s.succession r first windowMs count).map fun w => w.tally.count o).sum =
      (s.window r first (first + count * windowMs)).tally.count o := by
  have hsum : ((s.succession r first windowMs count).map fun w => w.tally.count o).sum =
      ∑ i ∈ Finset.range count,
        (s.window r (first + i * windowMs) (first + (i + 1) * windowMs)).tally.count o := by
    rw [succession, List.map_map]
    rfl
  rw [hsum, (isMergeOf_window (h r 0) hstop).count_eq o, ← Series.sum_within_succession]
  refine Finset.sum_congr rfl fun i hi => ?_
  have hle := succession_stop_le first windowMs (Finset.mem_range.mp hi)
  exact (isMergeOf_window (h r 0) (Nat.lt_of_le_of_lt hle hstop)).count_eq o

/-- The total latency of a window is a word, and is summed up as one. -/
theorem Tidy.sum_totalLatency_succession (h : s.Tidy)
    (hstop : first + count * windowMs < Word.size) :
    ((s.succession r first windowMs count).map Window.totalLatency).sum % Word.size =
      (s.window r first (first + count * windowMs)).totalLatency := by
  have hsum : ((s.succession r first windowMs count).map Window.totalLatency).sum =
      ∑ i ∈ Finset.range count,
        (s.window r (first + i * windowMs) (first + (i + 1) * windowMs)).totalLatency := by
    rw [succession, List.map_map]
    rfl
  rw [hsum, (isMergeOf_window (h r 0) hstop).totalLatency_eq, ← Series.sum_within_succession,
    Finset.sum_nat_mod _ _ fun i =>
      ∑ slot ∈ (s.seriesAt r 0).within (first + i * windowMs) (first + (i + 1) * windowMs),
        slot.totalLatency]
  refine congrArg (· % Word.size) (Finset.sum_congr rfl fun i hi => ?_)
  have hle := succession_stop_le first windowMs (Finset.mem_range.mp hi)
  exact (isMergeOf_window (h r 0) (Nat.lt_of_le_of_lt hle hstop)).totalLatency_eq

/-- Where the latencies of the window that covers them stay within the words, so do those of windows
in succession, and no remainder is taken anywhere: the total latencies sum up to the one of the
window that covers them. -/
theorem Tidy.totalLatency_succession_of_fits (h : s.Tidy)
    (hstop : first + count * windowMs < Word.size)
    (hfits : s.overflows r first (first + count * windowMs) = false) :
    (∀ w ∈ s.succession r first windowMs count, s.overflows r w.start w.stop = false) ∧
      ((s.succession r first windowMs count).map Window.totalLatency).sum =
        (s.window r first (first + count * windowMs)).totalLatency := by
  -- what can be added up for the whole range can be added up for each part
  have hpart : ∀ i < count,
      s.overflows r (first + i * windowMs) (first + (i + 1) * windowMs) = false := fun i hi =>
    overflows_of_le (h r 0) hstop hfits (Nat.le_add_right _ _) (succession_stop_le first windowMs hi)
  refine ⟨fun w hw => ?_, ?_⟩
  · obtain ⟨i, hi, rfl⟩ := List.mem_map.mp hw
    rw [(s.range_window r _ _).2, (s.range_window r _ _).1]
    exact hpart i (List.mem_range.mp hi)
  · calc ((s.succession r first windowMs count).map Window.totalLatency).sum
        = ∑ i ∈ Finset.range count,
            (s.window r (first + i * windowMs) (first + (i + 1) * windowMs)).totalLatency := by
          rw [succession, List.map_map]
          rfl
      _ = ∑ i ∈ Finset.range count,
            ∑ place ∈ Finset.Ico (first + i * windowMs) (first + (i + 1) * windowMs),
              (s.seriesAt r 0).latencyAt place :=
          Finset.sum_congr rfl fun i hi => by
            have hlt := Finset.mem_range.mp hi
            have hle := succession_stop_le first windowMs hlt
            exact totalLatency_window (h r 0) (Nat.lt_of_le_of_lt hle hstop) (hpart i hlt)
      _ = ∑ place ∈ Finset.Ico first (first + count * windowMs),
            (s.seriesAt r 0).latencyAt place :=
          Series.sum_succession
            (fun a b => ∑ place ∈ Finset.Ico a b, (s.seriesAt r 0).latencyAt place)
            (fun a => by simp) (fun hab hbc => (Finset.sum_Ico_consecutive _ hab hbc).symm) _ _ _
      _ = (s.window r first (first + count * windowMs)).totalLatency :=
          (totalLatency_window (h r 0) hstop hfits).symm

end Succession

/-- **The windows of a range cover it, and each slot once.** Whatever has happened to a store, it runs
over a range in as many whole windows as fit between the slot of the first time and the end, and in
none if the range is empty or windows have no slots. A window begins where the one before ended, and
none reaches past the end. Their counters sum up to those of the one window that covers them all. The
total latency is a word, and is summed up as one; where all latencies together are a word, that is
the plain sum, and no window is asked for that a build with checks does not give. Asked for one by
one the windows are the same, and after the last there is no more. -/
theorem windows_cover (slotMs retained : Nat) (events : List StatEvent) (r : Resource)
    (start stop slots : Nat) (hstart : start < Word.size) (hstop : stop < Word.size) :
    let s := (StatStore.new slotMs retained).after events
    let windowMs := min (slots * s.grid.slotMs) Word.greatest
    let first := s.grid.floor start
    let windows := s.windows r start stop slots
    let whole := s.window r first (first + windows.length * windowMs)
    (stop ≤ start ∨ slots = 0 → windows = []) ∧
    (start < stop ∧ slots ≠ 0 →
      windows = (List.range ((stop - first) / windowMs)).map fun i =>
        s.window r (first + i * windowMs) (first + (i + 1) * windowMs)) ∧
    windows.IsChain (fun w next => w.stop = next.start) ∧
    windows.Pairwise (fun w later => w.stop ≤ later.start) ∧
    (∀ w ∈ windows, first ≤ w.start ∧ w.start < w.stop ∧ w.stop ≤ stop) ∧
    (∀ o, (windows.map fun w => w.tally.count o).sum = whole.tally.count o) ∧
    (windows.map Window.totalLatency).sum % Word.size = whole.totalLatency ∧
    (s.overflows r whole.start whole.stop = false →
      (∀ w ∈ windows, s.overflows r w.start w.stop = false) ∧
        (windows.map Window.totalLatency).sum = whole.totalLatency) ∧
    ∀ n, (s.cursor r start stop slots).take s n = windows.take n := by
  intro s windowMs first windows whole
  have htidy : s.Tidy := tidy_after events (tidy_new slotMs retained)
  -- all clauses are about one list, the windows of equal length that fit into the range
  obtain ⟨count, hcover, hbelow, hpast⟩ := s.exists_windows_eq_succession r slots hstart hstop
  have hwindows : windows = s.succession r first windowMs count := hcover
  have hwhole : whole = s.window r first (first + count * windowMs) := by
    simp only [whole, hwindows, length_succession]
  refine ⟨fun h => windows_of_empty h r, fun h => s.windows_eq_succession r h.1 h.2 hstop,
    ?_, ?_, ?_, ?_, ?_, fun hfits => ?_, fun n => Cursor.take_eq s n _⟩
  · exact hwindows ▸ s.isChain_succession r first windowMs count
  · exact hwindows ▸ s.pairwise_succession r first windowMs count
  · intro w hw
    rw [hwindows] at hw
    have hcount : 0 < count := by
      rw [← s.length_succession r first windowMs count]
      exact List.length_pos_of_mem hw
    obtain ⟨hbegin, hlt, hend⟩ := range_of_mem_succession (hpast hcount).1 hw
    exact ⟨hbegin, hlt, hend.trans (hpast hcount).2⟩
  · intro o
    rw [hwhole, hwindows]
    exact htidy.sum_count_succession hbelow o
  · rw [hwhole, hwindows]
    exact htidy.sum_totalLatency_succession hbelow
  · rw [hwhole, (s.range_window r _ _).1, (s.range_window r _ _).2] at hfits
    rw [hwhole, hwindows]
    exact htidy.totalLatency_succession_of_fits hbelow hfits

/-- The first time is not the start of a slot, in the second window nothing was written, and for a
fourth there is no room. For a window as long as the words there is room once, and only from the
beginning of time on. -/
theorem windows_cover_unaligned :
    let r := Resource.service "s"
    let s := (StatStore.new 10 100).after
      [.call (.incr r .completed 12), .call (.recordLatency r 5 18), .call (.incr r .completed 55),
        .call (.recordLatency r 6 60), .call (.incr r .completed 75)]
    (s.windows r 13 77 2).length = 3 ∧
      ((s.windows r 13 77 2).map fun w => w.tally.count .completed).sum = 2 ∧
      ((s.windows r 13 77 2).map Window.totalLatency).sum = 11 ∧
      (s.windows r 3 Word.greatest Word.greatest).length = 1 := by
  intro r s
  obtain ⟨-, hall, -, -, -, hcount, -, hlatency, -⟩ := windows_cover 10 100
    [.call (.incr r .completed 12), .call (.recordLatency r 5 18), .call (.incr r .completed 55),
      .call (.recordLatency r 6 60), .call (.incr r .completed 75)]
    r 13 77 2 (by decide) (by decide)
  obtain ⟨-, hlong, -⟩ := windows_cover 10 100
    [.call (.incr r .completed 12), .call (.recordLatency r 5 18), .call (.incr r .completed 55),
      .call (.recordLatency r 6 60), .call (.incr r .completed 75)]
    r 3 Word.greatest Word.greatest (by decide) (by decide)
  have hlength : (s.windows r 13 77 2).length = 3 := by
    rw [hall ⟨by decide, by decide⟩, List.length_map, List.length_range]
    decide +kernel
  rw [hlength] at hcount hlatency
  refine ⟨hlength, (hcount .completed).trans ?_, (hlatency ?_).2.trans ?_, ?_⟩
  · decide +kernel
  · decide +kernel
  · decide +kernel
  · rw [hlong ⟨by decide, by decide⟩, List.length_map, List.length_range]
    decide +kernel

end StatStore
end Floodgate
