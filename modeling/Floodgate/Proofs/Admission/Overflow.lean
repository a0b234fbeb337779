import Floodgate.Admission.Overflow
import Floodgate.Proofs.Admission.Conservation
import Floodgate.Proofs.Stats.Present
import Floodgate.Proofs.Stats.WordRange
import Floodgate.Stats.Report

/-!
# Sums that leave the words

Times are added up at three places where a request is decided and where traffic is reported: the end
of the slot at which the window of a breaker ends, the end of the slot that is reported, and the step
from one place to the next when slots are looked up. None of these sums goes astray at a time that a
clock of signed words gives, however long the slots are (`sums_of_times_are_words`).

So if no answer comes of a request, latencies have been added up. A latency is a difference of
times, and so a word like them. But nothing keeps the requests of a window from taking nearly
`2 ^ 63` milliseconds each, and the sum of three such latencies is no word
(`latencies_leave_words`).
-/

set_option autoImplicit false

namespace Floodgate

/-- If the breakers form a sum that is no word, one of them does. -/
theorem Registry.exists_overflow? {r : Registry} {book : RuleBook} {stats : StatStore}
    {candidates : List Resource} {now : Nat} {sum : Overflow}
    (hsum : r.overflow? book stats candidates now = some sum) :
    ∃ b : Breaker, b.overflow? stats now = some sum := by
  obtain ⟨b, -, hb⟩ := Option.bind_eq_some_iff.mp hsum
  exact ⟨b, hb⟩

/-- **A request whose slot ends at a word is stopped by latencies alone.** What the limiter has
written before the breaker looks leaves the grid as it is. -/
theorem Gate.overflowAt?_eq_latency {g : Gate} {identity : Identity} {now : Nat} {sum : Overflow}
    (hend : g.stats.grid.floor now + g.stats.grid.slotMs < Word.size)
    (hsum : g.overflowAt? identity now = some sum) : sum = .latency := by
  have hgrid := (Limiter.booked_permit g.book g.stats identity.candidates now).grid
  unfold overflowAt? at hsum
  rcases hl : Limiter.permit g.book g.stats identity.candidates now with ⟨decision, stats⟩
  rw [hl] at hsum hgrid
  cases decision with
  | denied resource axis rule => cases hsum
  | allowed lease =>
    obtain ⟨b, hb⟩ := Registry.exists_overflow? hsum
    cases sum with
    | latency => rfl
    | slotEnd =>
      have hbeyond := (Breaker.overflow?_eq_slotEnd_iff.mp hb).2
      rw [hgrid] at hbeyond
      exact absurd hend (Nat.not_lt_of_le hbeyond)

/-- **Sums of times are words.** Slots may be of any length that a word can say, and the time is any
that a clock of signed words gives. The present slot, at whose end the window of every breaker ends,
ends in the words and ahead of the present time, so that a request may remain without an answer for
the sum of latencies alone. The slot that is reported ends in the words too. The slots of any window,
however far it reaches, are either picked from all or looked up at places that only rise, all of
them in the window, and of which there are no more than slots. -/
theorem sums_of_times_are_words (stats : StatStore) (hslot : stats.grid.slotMs < Word.size)
    {now : Nat} (hnow : now < 2 ^ 63) :
    let slotMs := stats.grid.slotMs
    let present := stats.grid.floor now
    let report := stats.report now
    (now < present + slotMs ∧ present + slotMs < Word.size ∧
      (∀ (b : Breaker) (since : Nat), b.monitorWindow stats since now =
        stats.window b.resource (max (present + slotMs - b.rule.monitorMs) (stats.grid.floor since))
          (present + slotMs)) ∧
      ∀ (gate : Gate) (identity : Identity) (sum : Overflow), gate.stats = stats →
        gate.overflowAt? identity now = some sum → sum = .latency) ∧
    (report.slotStart + slotMs < Word.size ∧ ∀ e ∈ report.resources,
      e.2.start = report.slotStart ∧ e.2.stop = report.slotStart + slotMs) ∧
    ∀ (s : Series) (start stop stepMs : Nat), stop < Word.size →
      let step := max stepMs 1
      let asked := Series.askedPlaces stop step (Series.firstPlace start step)
      asked.Pairwise (· < ·) ∧ (∀ place ∈ asked, start ≤ place ∧ place < stop) ∧
        if asked.length ≤ s.slots.size then
          s.slotsIn start stop step = asked.filterMap s.slots.get?
        else s.slotsIn start stop step = s.scanned start stop := by
  intro slotMs present report
  -- both terms lie below half the words, and everything else about the window follows
  have hend : present + slotMs < Word.size := stats.grid.floor_add_slotMs_lt hslot hnow
  refine ⟨⟨stats.grid.lt_floor_add now, hend, fun b since => b.monitorWindow_eq stats since now hend,
    fun gate identity sum hstats hsum => ?_⟩, ⟨?_, fun e he => ?_⟩,
    fun s start stop stepMs hstop => ?_⟩
  · subst hstats
    exact Gate.overflowAt?_eq_latency hend hsum
  · have hsize : 2 ^ 63 < Word.size := by decide
    exact stats.grid.floor_sub_slotMs_add_lt hslot (Nat.lt_trans hnow hsize)
  · obtain ⟨r, -, rfl⟩ := List.mem_map.mp he
    exact stats.range_window r _ _
  · intro step asked
    have hpos : 0 < step := Nat.le_max_right stepMs 1
    refine ⟨Series.pairwise_askedPlaces hpos hstop, fun place hplace => ⟨?_, ?_⟩, ?_⟩
    · exact Series.le_of_mem_askedPlaces hpos hstop hplace
    · exact (Series.mem_askedPlaces hpos hstop hplace).2
    · rw [s.slotsIn_eq start hpos hstop]
      split <;> rfl

/-- Slots as long as a word can say, and the last time of a clock of signed words. A window of the
last time of the words alone: no word holds a place for a slot in it. -/
theorem sums_of_times_are_words_longest :
    let stats := (StatStore.new Word.greatest 1).incr (.service "s") .started (2 ^ 63 - 1)
    (stats.report (2 ^ 63 - 1)).slotStart + Word.greatest < Word.size ∧
      stats.grid.floor (2 ^ 63 - 1) + Word.greatest < Word.size ∧
      ({} : Series).slotsIn (Word.greatest - 1) Word.greatest 2 = [] := by
  intro stats
  have hnow : 2 ^ 63 - 1 < 2 ^ 63 := by decide
  obtain ⟨⟨-, hend, -⟩, ⟨hreported, -⟩, hfound⟩ :=
    sums_of_times_are_words stats (by decide +kernel) hnow
  refine ⟨hreported, hend, ?_⟩
  have hslots := (hfound {} (Word.greatest - 1) Word.greatest 2 (by decide)).2.2
  exact hslots

/-- Three requests are let through at the very beginning. Two end at a time close to `2 ^ 63`, and the
third in a later slot. The window of the next request holds both slots, each with a sum of latencies
that is a word, and the sum of the two is none: no answer comes of that request. -/
theorem latencies_leave_words :
    let rule : DegradeRule := { resource := .service "s", strategy := .totalErrors 1 }
    let request : GateEvent := .enter { service := "s" } 0
    let ended : GateEvent := .finish 0 (some true)
    let run := (GateRun.start (RuleBook.ofChanges [.degrade (.upsert rule)]) 1000 10
      { now := 0 }).after [request, request, request, .setClock (2 ^ 63 - 2500), ended, ended,
        .setClock (2 ^ 63 - 1), ended]
    let now := run.gate.clock.now
    let slotMs := run.gate.stats.grid.slotMs
    let stop := run.gate.stats.grid.floor now + slotMs
    let watched := (run.gate.stats.seriesAt (.service "s") now).slotsIn (stop - rule.monitorMs) stop
      slotMs
    now < 2 ^ 63 ∧ 1 ≤ slotMs ∧ (∀ slot ∈ watched, slot.totalLatency < Word.size) ∧
      (watched.map Slot.totalLatency).sum = 27670116110564322423 ∧
      Word.size ≤ 27670116110564322423 ∧
      run.gate.overflow? { service := "s" } = some .latency := by
  decide +kernel

end Floodgate
