import Floodgate.Proofs.Stats.Aggregate
import Mathlib.Data.Finset.Max
import Mathlib.Order.Lattice.Nat

/-!
# A window is the merge of its slots

`Aggregate` shows that both ways of reading a window find the same slots, though not in the same
order. Here the order is lost too. `Window.IsMergeOf` says what a window holds of a *set* of slots:
sums, maxima, and the breaker state of the latest slot that has one. Merging one more slot adds it
to the set (`IsMergeOf.merge`), so merging a list of them, in whatever order, is merging their set
(`IsMergeOf.mergeAll`); and a set of slots has one merge only (`IsMergeOf.unique`).

Two slots of a series never begin at the same time. Only the breaker state needs that: of two slots
with the same start it would depend on the order which is the latest.
-/

set_option autoImplicit false

namespace Floodgate

/-! ## The merge of a set of slots -/

/-- A slot of a set that has a breaker state, while no later one has. There is at most one if no two
slots of the set begin at the same time. -/
def Slot.IsLastSeen (slot : Slot) (slots : Finset Slot) : Prop :=
  slot ∈ slots ∧ slot.state.isSome ∧
    ∀ other ∈ slots, other.state.isSome → other.start ≤ slot.start

/-- What a window holds of a set of slots. Every figure is a sum or a maximum over the set, and
latencies are added up as words. -/
structure Window.IsMergeOf (w : Window) (start stop : Nat) (slots : Finset Slot) : Prop where
  start_eq : w.start = start
  stop_eq : w.stop = stop
  count_eq : ∀ o, w.tally.count o = ∑ slot ∈ slots, slot.tally.count o
  totalLatency_eq : w.totalLatency = (∑ slot ∈ slots, slot.totalLatency) % Word.size
  maxLatency_eq : w.maxLatency = slots.sup Slot.maxLatency
  peak_eq : w.peak = slots.sup Slot.peak
  lastState_eq_some_iff : ∀ at_ state, w.lastState = some (at_, state) ↔
    ∃ slot : Slot, slot.IsLastSeen slots ∧ slot.start = at_ ∧ slot.state = some state

namespace Window

variable {start stop : Nat} {slots : Finset Slot} {w w' : Window}

theorem isMergeOf_empty (start stop : Nat) : (empty start stop).IsMergeOf start stop ∅ where
  start_eq := rfl
  stop_eq := rfl
  count_eq o := by cases o <;> rfl
  totalLatency_eq := rfl
  maxLatency_eq := rfl
  peak_eq := rfl
  lastState_eq_some_iff := by simp [empty, Slot.IsLastSeen]

namespace IsMergeOf

/-- **A set of slots has one merge.** So two ways of reading a window that find the same slots give
the same figures. -/
theorem unique (h : w.IsMergeOf start stop slots) (h' : w'.IsMergeOf start stop slots) :
    w = w' := by
  have htally : w.tally = w'.tally :=
    Tally.ext_count fun o => (h.count_eq o).trans (h'.count_eq o).symm
  have hlast : w.lastState = w'.lastState := by
    refine Option.ext fun ⟨at_, state⟩ => ?_
    exact (h.lastState_eq_some_iff at_ state).trans (h'.lastState_eq_some_iff at_ state).symm
  obtain ⟨hstart, hstop, -, htotal, hmax, hpeak, -⟩ := h
  obtain ⟨hstart', hstop', -, htotal', hmax', hpeak', -⟩ := h'
  cases w
  cases w'
  simp_all

/-- The average is taken of the merged figures and not of the averages of slots. -/
theorem averageLatency_eq (h : w.IsMergeOf start stop slots) :
    w.averageLatency =
      if ∑ slot ∈ slots, slot.tally.count .completed = 0 then 0
      else (∑ slot ∈ slots, slot.totalLatency) % Word.size /
        ∑ slot ∈ slots, slot.tally.count .completed := by
  have hcompleted : w.tally.completed = ∑ slot ∈ slots, slot.tally.count .completed :=
    h.count_eq .completed
  rw [Window.averageLatency, h.totalLatency_eq, hcompleted]
  split
  · rename_i hnone
    rw [hnone, Nat.div_zero]
  · rfl

/-! ### The breaker state -/

theorem lastState_eq_none_iff (h : w.IsMergeOf start stop slots) :
    w.lastState = none ↔ ∀ slot ∈ slots, slot.state = none := by
  constructor
  · intro hnone
    by_contra hsome
    -- among the slots that have a state there is a latest
    let seen := slots.filter fun slot => slot.state.isSome
    have hseen : seen.Nonempty := by
      push Not at hsome
      obtain ⟨slot, hslot, hstate⟩ := hsome
      exact ⟨slot, Finset.mem_filter.mpr ⟨hslot, Option.isSome_iff_ne_none.mpr hstate⟩⟩
    obtain ⟨slot, hslot, hlast⟩ := seen.exists_max_image Slot.start hseen
    obtain ⟨hmem, hstate⟩ := Finset.mem_filter.mp hslot
    obtain ⟨state, hstate'⟩ := Option.isSome_iff_exists.mp hstate
    have hsome := (h.lastState_eq_some_iff slot.start state).mpr ⟨slot, ⟨hmem, hstate,
      fun other hother hseen => hlast other (Finset.mem_filter.mpr ⟨hother, hseen⟩)⟩, rfl, hstate'⟩
    rw [hnone] at hsome
    cases hsome
  · intro hnone
    refine Option.eq_none_iff_forall_ne_some.mpr fun ⟨at_, state⟩ hsome => ?_
    obtain ⟨slot, ⟨hmem, -, -⟩, -, hstate⟩ := (h.lastState_eq_some_iff at_ state).mp hsome
    rw [hnone slot hmem] at hstate
    cases hstate

/-- A window shows the state of the latest slot that has one. -/
theorem state?_eq_some_iff (h : w.IsMergeOf start stop slots) (state : BreakerState) :
    w.state? = some state ↔ ∃ slot : Slot, slot.IsLastSeen slots ∧ slot.state = some state := by
  simp only [state?, Option.map_eq_some_iff, Prod.exists, h.lastState_eq_some_iff]
  constructor
  · rintro ⟨at_, _, ⟨slot, hlast, -, hstate⟩, rfl⟩
    exact ⟨slot, hlast, hstate⟩
  · rintro ⟨slot, hlast, hstate⟩
    exact ⟨slot.start, state, ⟨slot, hlast, rfl, hstate⟩, rfl⟩

theorem state?_eq_none_iff (h : w.IsMergeOf start stop slots) :
    w.state? = none ↔ ∀ slot ∈ slots, slot.state = none := by
  rw [state?, Option.map_eq_none_iff, h.lastState_eq_none_iff]

end IsMergeOf
end Window

namespace Slot

variable {slot last : Slot} {slots : Finset Slot}

/-- A further slot has to be compared with the latest so far, and that only if it has a state. -/
theorem isLastSeen_insert_iff :
    last.IsLastSeen (insert slot slots) ↔ (last = slot ∨ last ∈ slots) ∧ last.state.isSome ∧
      (slot.state.isSome → slot.start ≤ last.start) ∧
        ∀ other ∈ slots, other.state.isSome → other.start ≤ last.start := by
  rw [IsLastSeen, Finset.mem_insert, Finset.forall_mem_insert]

theorem isLastSeen_insert_of_state_eq_none (hstate : slot.state = none) :
    last.IsLastSeen (insert slot slots) ↔ last.IsLastSeen slots := by
  rw [isLastSeen_insert_iff]
  constructor
  · rintro ⟨rfl | hmem, hseen, -, hle⟩
    · simp [hstate] at hseen
    · exact ⟨hmem, hseen, hle⟩
  · rintro ⟨hmem, hseen, hle⟩
    exact ⟨.inr hmem, hseen, fun h => by simp [hstate] at h, hle⟩

/-- A slot that has a state and is later than all others that have one is the last. -/
theorem isLastSeen_insert_of_lt (hstate : slot.state.isSome)
    (hlt : ∀ other ∈ slots, other.state.isSome → other.start < slot.start) :
    last.IsLastSeen (insert slot slots) ↔ last = slot := by
  rw [isLastSeen_insert_iff]
  constructor
  · rintro ⟨rfl | hmem, hseen, hle, -⟩
    · rfl
    · exact absurd (hle hstate) (Nat.not_le.mpr (hlt last hmem hseen))
  · rintro rfl
    exact ⟨.inl rfl, hstate, fun _ => Nat.le_refl _, fun o ho hs => Nat.le_of_lt (hlt o ho hs)⟩

/-- A slot that is earlier than one that has a state is not the last. -/
theorem isLastSeen_insert_of_gt {late : Slot} (hlate : late ∈ slots) (hseen : late.state.isSome)
    (hlt : slot.start < late.start) :
    last.IsLastSeen (insert slot slots) ↔ last.IsLastSeen slots := by
  rw [isLastSeen_insert_iff]
  constructor
  · rintro ⟨rfl | hmem, hlast, -, hle⟩
    · exact absurd (hle late hlate hseen) (Nat.not_le.mpr hlt)
    · exact ⟨hmem, hlast, hle⟩
  · rintro ⟨hmem, hlast, hle⟩
    exact ⟨.inr hmem, hlast, fun _ => Nat.le_trans (Nat.le_of_lt hlt) (hle late hlate hseen), hle⟩

end Slot

namespace Window.IsMergeOf

variable {start stop : Nat} {slots : Finset Slot} {w : Window} {slot : Slot}

/-- Merging a slot keeps the later of two states. The slot may come in any order, but not at the
same start as another. -/
theorem lastState_merge (h : w.IsMergeOf start stop slots)
    (hother : ∀ other ∈ slots, other.start ≠ slot.start) (at_ : Nat) (state : BreakerState) :
    (w.merge slot).lastState = some (at_, state) ↔
      ∃ last : Slot, last.IsLastSeen (insert slot slots) ∧ last.start = at_ ∧
        last.state = some state := by
  have hmerge : (w.merge slot).lastState =
      laterState w.lastState (slot.state.map fun state => (slot.start, state)) := rfl
  -- the states so far and that of the slot: four cases, and only the last compares two times
  rw [hmerge]
  cases hstate : slot.state with
  | none =>
    have hkept : laterState w.lastState (Option.map (slot.start, ·) none) = w.lastState := by
      cases w.lastState <;> rfl
    simp only [hkept, h.lastState_eq_some_iff, Slot.isLastSeen_insert_of_state_eq_none hstate]
  | some seen =>
    have hsome : slot.state.isSome := by simp [hstate]
    cases hlast : w.lastState with
    | none =>
      have hnone := h.lastState_eq_none_iff.mp hlast
      have hinsert (last : Slot) : last.IsLastSeen (insert slot slots) ↔ last = slot :=
        Slot.isLastSeen_insert_of_lt hsome fun other ho hs => by simp [hnone other ho] at hs
      simp [hinsert, laterState, hstate]
    | some was =>
      obtain ⟨before, ⟨hmem, hseen, hle⟩, hstart, -⟩ :=
        (h.lastState_eq_some_iff was.1 was.2).mp hlast
      by_cases hlt : was.1 < slot.start
      · have hinsert (last : Slot) : last.IsLastSeen (insert slot slots) ↔ last = slot :=
          Slot.isLastSeen_insert_of_lt hsome fun other ho hs =>
            Nat.lt_of_le_of_lt (hle other ho hs) (hstart ▸ hlt)
        simp [hinsert, laterState, hlt, hstate]
      · -- two slots do not begin at the same time
        have hgt : slot.start < before.start := by
          have := hother before hmem
          omega
        have hkept : laterState (some was) (some (slot.start, seen)) = w.lastState := by
          rw [laterState, if_neg hlt, hlast]
        simp only [Option.map_some, hkept, h.lastState_eq_some_iff,
          Slot.isLastSeen_insert_of_gt hmem hseen hgt]

/-! ### One slot, and all of them -/

/-- **Merging one more slot adds it to the set.** It must not begin when a slot of the set does, or
the state that was seen last would depend on the order. -/
theorem merge (h : w.IsMergeOf start stop slots)
    (hother : ∀ other ∈ slots, other.start ≠ slot.start) :
    (w.merge slot).IsMergeOf start stop (insert slot slots) := by
  -- a slot that were there already would be counted twice
  have hfresh : slot ∉ slots := fun hmem => hother slot hmem rfl
  exact {
    start_eq := h.start_eq
    stop_eq := h.stop_eq
    count_eq := fun o => by
      have hmerge : (w.merge slot).tally.count o = w.tally.count o + slot.tally.count o :=
        Tally.count_add _ _ o
      rw [hmerge, h.count_eq, Finset.sum_insert hfresh, Nat.add_comm]
    totalLatency_eq := by
      have hmerge : (w.merge slot).totalLatency =
        (w.totalLatency + slot.totalLatency) % Word.size := rfl
      rw [hmerge, h.totalLatency_eq, Nat.mod_add_mod, Finset.sum_insert hfresh, Nat.add_comm]
    maxLatency_eq := by
      have hmerge : (w.merge slot).maxLatency = max w.maxLatency slot.maxLatency := rfl
      rw [hmerge, h.maxLatency_eq, Finset.sup_insert, max_comm]
    peak_eq := by
      have hmerge : (w.merge slot).peak = max w.peak slot.peak := rfl
      rw [hmerge, h.peak_eq, Finset.sup_insert, max_comm]
    lastState_eq_some_iff := h.lastState_merge hother }

/-- **Merging a list of slots adds them all, in whatever order they come.** -/
theorem mergeAll (visited : List Slot) (hnodup : (visited.map Slot.start).Nodup) :
    ∀ {w : Window} {slots : Finset Slot}, w.IsMergeOf start stop slots →
      (∀ slot ∈ visited, ∀ other ∈ slots, other.start ≠ slot.start) →
        (w.mergeAll visited).IsMergeOf start stop (visited.toFinset ∪ slots) := by
  -- the slots merged so far are in the set, so the invariant is that the rest begin elsewhere
  induction visited with
  | nil =>
    intro w slots h _
    simpa [Window.mergeAll] using h
  | cons slot visited ih =>
    intro w slots h hother
    obtain ⟨hfirst, hnodup⟩ := List.nodup_cons.mp hnodup
    have hmerged := h.merge (hother slot (.head _))
    have hrest : ∀ later ∈ visited, ∀ other ∈ insert slot slots, other.start ≠ later.start := by
      intro later hlater other hmem
      rcases Finset.mem_insert.mp hmem with rfl | hmem
      · exact fun heq => hfirst (heq ▸ List.mem_map_of_mem hlater)
      · exact hother later (.tail _ hlater) other hmem
    have hset : (slot :: visited).toFinset ∪ slots = visited.toFinset ∪ insert slot slots := by
      rw [List.toFinset_cons, Finset.insert_union, Finset.union_insert]
    rw [hset]
    exact ih hnodup hmerged hrest

end Window.IsMergeOf

/-! ## The windows of a series -/

namespace Series

variable {s : Series} {slotMs start stop : Nat}

/-- The slots of a series that begin in `[start, stop)`. -/
def within (s : Series) (start stop : Nat) : Finset Slot :=
  s.slots.values.toFinset.filter fun slot => start ≤ slot.start ∧ slot.start < stop

section Placed

variable (hplaced : ∀ {place slot}, s.slots.get? place = some slot → slot.start = place)
include hplaced

theorem mem_within_iff {slot : Slot} :
    slot ∈ s.within start stop ↔
      s.slots.get? slot.start = some slot ∧ start ≤ slot.start ∧ slot.start < stop := by
  simp only [within, Finset.mem_filter, List.mem_toFinset, Table.values, List.mem_map, Prod.exists,
    Table.mem_entries_iff, exists_eq_right, and_congr_left_iff]
  intro _
  constructor
  · rintro ⟨place, hget⟩
    rw [hplaced hget]
    exact hget
  · exact fun hget => ⟨slot.start, hget⟩

theorem start_inj_within {slot other : Slot} (h : slot ∈ s.within start stop)
    (h' : other ∈ s.within start stop) (heq : slot.start = other.start) : slot = other := by
  have hget := ((mem_within_iff hplaced).mp h).1
  rw [heq, ((mem_within_iff hplaced).mp h').1] at hget
  exact (Option.some.inj hget).symm

/-- However the slots of a window are listed, merging the list is merging their set. No slot may be
listed twice, or it would be counted twice. -/
theorem isMergeOf_mergeAll {visited : List Slot} (hnodup : visited.Nodup)
    (hmem : ∀ slot, slot ∈ visited ↔ slot ∈ s.within start stop) :
    ((Window.empty start stop).mergeAll visited).IsMergeOf start stop (s.within start stop) := by
  have hset : visited.toFinset ∪ ∅ = s.within start stop := by
    ext slot
    simp [hmem]
  rw [← hset]
  refine Window.IsMergeOf.mergeAll visited ?_ (Window.isMergeOf_empty start stop) (by simp)
  refine List.Nodup.map_on (fun slot h other h' heq => ?_) hnodup
  exact start_inj_within hplaced ((hmem slot).mp h) ((hmem other).mp h') heq

theorem mem_scanned_iff {slot : Slot} :
    slot ∈ s.scanned start stop ↔ slot ∈ s.within start stop := by
  rw [mem_within_iff hplaced]
  simp only [scanned, Table.values, List.mem_map, Prod.exists, Table.mem_entries_iff,
    Table.get?_filter, Option.filter_eq_some_iff, Bool.and_eq_true, decide_eq_true_eq,
    exists_eq_right]
  constructor
  · rintro ⟨place, hget, hrange⟩
    rw [hplaced hget]
    exact ⟨hget, hrange⟩
  · rintro ⟨hget, hrange⟩
    exact ⟨slot.start, hget, hrange⟩

theorem nodup_scanned : (s.scanned start stop).Nodup := by
  -- a slot says where it lies, so no two places hold the same slot
  refine List.Nodup.map_on ?_ (List.Nodup.of_map _ (Table.nodup _))
  rintro ⟨place, slot⟩ he ⟨place', slot'⟩ he' (rfl : slot = slot')
  rw [Table.mem_entries_iff, Table.get?_filter, Option.filter_eq_some_iff] at he he'
  rw [← hplaced he.1, ← hplaced he'.1]

end Placed

/-- In a series in order every window is the merge of its slots. Either way of reading it finds
them. -/
theorem Tidy.isMergeOf_aggregate (h : s.Tidy slotMs) (hpos : 0 < slotMs) (hstop : stop < Word.size) :
    (s.aggregate start stop slotMs).IsMergeOf start stop (s.within start stop) := by
  have hfound : (s.slotsIn start stop slotMs).Perm (s.scanned start stop) :=
    slotsIn_perm_scanned h.aligned hpos hstop
  rw [aggregate, Nat.max_eq_left hpos]
  exact isMergeOf_mergeAll h.placed (hfound.nodup_iff.mpr (nodup_scanned h.placed)) fun slot =>
    hfound.mem_iff.trans (mem_scanned_iff h.placed)

/-- **A window is the merge of its slots**, whichever way they are found and in whatever order. Slots
lie in the places of their own starts, as every write leaves them (`Tidy.updateSlot`), and these are
multiples of the slot length. Of the range it is only asked that it ends at a word. -/
theorem aggregate_isMergeOf_within (s : Series) (start stop slotMs : Nat)
    (hplaced : ∀ {place slot}, s.slots.get? place = some slot → slot.start = place)
    (haligned : ∀ {place slot}, s.slots.get? place = some slot → slotMs ∣ slot.start)
    (hstop : stop < Word.size) :
    let step := max slotMs 1
    let window := s.aggregate start stop slotMs
    let slots := s.within start stop
    (Window.empty start stop).mergeAll (s.lookUp stop step (firstPlace start step)) = window ∧
      (Window.empty start stop).mergeAll (s.scanned start stop) = window ∧
      (∀ visited : List Slot, visited.Nodup → (∀ slot, slot ∈ visited ↔ slot ∈ slots) →
        (Window.empty start stop).mergeAll visited = window) ∧
      window.start = start ∧ window.stop = stop ∧
      (∀ o, window.tally.count o = ∑ slot ∈ slots, slot.tally.count o) ∧
      window.totalLatency = (∑ slot ∈ slots, slot.totalLatency) % Word.size ∧
      window.maxLatency = slots.sup Slot.maxLatency ∧ window.peak = slots.sup Slot.peak ∧
      window.averageLatency =
        (if ∑ slot ∈ slots, slot.tally.count .completed = 0 then 0
        else (∑ slot ∈ slots, slot.totalLatency) % Word.size /
          ∑ slot ∈ slots, slot.tally.count .completed) ∧
      (window.state? = none ↔ ∀ slot ∈ slots, slot.state = none) ∧
      ∀ state, window.state? = some state ↔
        ∃ slot : Slot, slot.IsLastSeen slots ∧ slot.state = some state := by
  intro step window slots
  have hpos : 0 < step := Nat.lt_of_lt_of_le Nat.one_pos (Nat.le_max_right _ _)
  -- slots of no length lie at the beginning of time
  have hplaces : ∀ {place slot}, s.slots.get? place = some slot → step ∣ place := by
    intro place slot hget
    have hdvd : slotMs ∣ place := hplaced hget ▸ haligned hget
    rcases Nat.eq_zero_or_pos slotMs with rfl | hslot
    · exact (Nat.zero_dvd.mp hdvd) ▸ Nat.dvd_zero _
    · have hstep : step = slotMs := Nat.max_eq_left hslot
      exact hstep ▸ hdvd
  have hlooked : (s.lookUp stop step (firstPlace start step)).Perm (s.scanned start stop) :=
    lookUp_perm_scanned hplaces hpos hstop
  have hfound : (s.slotsIn start stop step).Perm (s.scanned start stop) :=
    slotsIn_perm_scanned hplaces hpos hstop
  have hmerge : ∀ visited : List Slot, visited.Perm (s.scanned start stop) →
      ((Window.empty start stop).mergeAll visited).IsMergeOf start stop slots := fun visited h =>
    isMergeOf_mergeAll hplaced (h.nodup_iff.mpr (nodup_scanned hplaced)) fun slot =>
      h.mem_iff.trans (mem_scanned_iff hplaced)
  have hwindow : window.IsMergeOf start stop slots := hmerge _ hfound
  refine ⟨(hmerge _ hlooked).unique hwindow, (hmerge _ (.refl _)).unique hwindow,
    fun visited hnodup hmem => (isMergeOf_mergeAll hplaced hnodup hmem).unique hwindow,
    hwindow.start_eq, hwindow.stop_eq, hwindow.count_eq, hwindow.totalLatency_eq,
    hwindow.maxLatency_eq, hwindow.peak_eq, hwindow.averageLatency_eq,
    hwindow.state?_eq_none_iff, hwindow.state?_eq_some_iff⟩

/-- The slots come into being out of order, and the window ends with the words. The last slot has no
breaker state, so that of the slot before is the last that was seen. Only one of the two latencies is
that of a completed request, and so the average is their sum. -/
theorem aggregate_isMergeOf_within_unordered :
    let late := (Series.new 0).updateSlot 40 1000 (·.recordLatency 7)
    let early := late.updateSlot 10 1000 (·.recordState .open)
    let s := early.updateSlot 20 1000 fun slot =>
      ((slot.recordLatency 30).incr .completed).recordState .closed
    let window := s.aggregate 10 Word.greatest 10
    window.totalLatency = 37 ∧ window.maxLatency = 30 ∧ window.averageLatency = 37 ∧
      window.state? = some .closed := by
  intro late early s window
  have hlate : late.Tidy 10 :=
    (tidy_of_empty rfl : (Series.new 0).Tidy 10).updateSlot (by decide) (by decide) fun _ => rfl
  have hearly : early.Tidy 10 := hlate.updateSlot (by decide) (by decide) fun _ => rfl
  have htidy : s.Tidy 10 := hearly.updateSlot (by decide) (by decide) fun slot =>
    (Slot.start_recordState _ _).trans
      ((Slot.start_incr _ _).trans (Slot.start_recordLatency slot _))
  obtain ⟨-, -, -, -, -, -, htotal, hmax, -, haverage, -, hstate⟩ :=
    aggregate_isMergeOf_within s 10 Word.greatest 10 htidy.placed
      (fun hget => htidy.placed hget ▸ htidy.aligned hget) (by decide)
  have hlast : (s.slotFor 20).IsLastSeen (s.within 10 Word.greatest) :=
    ⟨by decide +kernel, by decide +kernel, by decide +kernel⟩
  exact ⟨htotal.trans (by decide +kernel), hmax.trans (by decide +kernel),
    haverage.trans (by decide +kernel), (hstate .closed).mpr ⟨_, hlast, by decide +kernel⟩⟩

end Series
end Floodgate
