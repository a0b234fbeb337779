import Floodgate.Proofs.Resource.Order
import Floodgate.Proofs.Stats.Retention
import Floodgate.Stats.Report
import Mathlib.Algebra.BigOperators.Intervals

/-!
# What reports count

A report lists the resources in their order and says what was counted in the slot before that of the
present time. Here reports are built in the course of a run of calls, and what they say is compared
with the log of the run.

A report is made of windows that begin one slot behind the present one, so it can be trusted as long
as two slots are kept (`StatStore.Recorded.count_report`). It goes on to say what the log has: time
does not go back, so nothing is written later in a slot that has been reported
(`ReportRun.Settled`). Reports of slots that follow one another then count together what the log has
for all of these slots (`ReportRun.reports_count_their_slots`).

The span for which slots are kept is the saturating product. Where slots are as long as a word can
say, two of them are kept no longer than one, and the reported slot is dropped when the present one
comes into being (`ReportRun.reported_slot_is_dropped`).
-/

set_option autoImplicit false

namespace Floodgate

/-! ## Resources in order -/

namespace Roster

universe u v

variable {κ : Type u} {α : Type v}

theorem nodup_keys (r : Roster κ α) : r.keys.Nodup := by
  rw [keys, toList, List.map_filterMap, List.Nodup, List.pairwise_filterMap]
  refine (List.pairwise_map.mp r.places.nodup).imp fun hne k hk k' hk' => ?_
  obtain ⟨_, he, rfl⟩ := Option.map_eq_some_iff.mp hk
  obtain ⟨_, -, rfl⟩ := Option.map_eq_some_iff.mp he
  obtain ⟨_, he', rfl⟩ := Option.map_eq_some_iff.mp hk'
  obtain ⟨_, -, rfl⟩ := Option.map_eq_some_iff.mp he'
  exact hne

theorem mem_keys_iff [DecidableEq κ] (r : Roster κ α) (k : κ) : k ∈ r.keys ↔ (r.current? k).isSome := by
  simp only [keys, toList, List.mem_map, List.mem_filterMap, Option.isSome_iff_exists]
  constructor
  · rintro ⟨⟨_, a⟩, ⟨⟨k, s⟩, hmem, he⟩, rfl⟩
    obtain ⟨_, hcurrent, he⟩ := Option.map_eq_some_iff.mp he
    cases he
    refine ⟨a, ?_⟩
    rw [current?, place, (r.places.mem_entries_iff k s).mp hmem]
    exact hcurrent
  · rintro ⟨a, ha⟩
    cases hs : r.places.get? k with
    | none =>
      rw [current?, place, hs] at ha
      cases ha
    | some s =>
      rw [current?, place, hs] at ha
      exact ⟨(k, a), ⟨(k, s), (r.places.mem_entries_iff k s).mpr hs,
        Option.map_eq_some_iff.mpr ⟨a, ha, rfl⟩⟩, rfl⟩

end Roster

namespace Resource

theorem mem_sort {rs : List Resource} {r : Resource} : r ∈ sort rs ↔ r ∈ rs := List.mem_mergeSort

theorem nodup_sort {rs : List Resource} (h : rs.Nodup) : (sort rs).Nodup :=
  (List.mergeSort_perm rs atMost).nodup_iff.mpr h

theorem atMost_trans (a b c : Resource) (hab : atMost a b = true) (hbc : atMost b c = true) :
    atMost a c = true := by
  have htrans : (order a c).isLE := Std.TransCmp.isLE_trans hab hbc
  exact htrans

theorem atMost_total (a b : Resource) : (atMost a b || atMost b a) = true := by
  have hswap : order b a = (order a b).swap := Std.OrientedCmp.eq_swap
  rw [atMost, atMost, hswap]
  cases order a b <;> rfl

/-- Different resources are sorted strictly. -/
theorem pairwise_sort {rs : List Resource} (h : rs.Nodup) :
    (sort rs).Pairwise fun r r' => order r r' = .lt := by
  have hsorted : (sort rs).Pairwise fun r r' => atMost r r' = true :=
    List.pairwise_mergeSort atMost_trans atMost_total rs
  refine (hsorted.and (nodup_sort h)).imp fun {r r'} hboth => ?_
  obtain ⟨hle, hne⟩ := hboth
  cases hcmp : order r r' with
  | lt => rfl
  | eq => exact absurd (eq_of_order_eq hcmp) hne
  | gt =>
    rw [atMost, hcmp] at hle
    cases hle

end Resource

/-! ## Counting by reports -/

/-- What a report counts for a resource, all its entries taken together. -/
def Report.count (report : Report) (r : Resource) (o : Outcome) : Nat :=
  ((report.resources.filter (·.1 = r)).map fun e => e.2.tally.count o).sum

namespace StatStore

variable {s : StatStore} {bound : Resource → Nat} {log : List SlotWrite} {now : Nat}

theorem mem_sortedResources (s : StatStore) (r : Resource) :
    r ∈ s.sortedResources ↔ (s.get? r).isSome :=
  Resource.mem_sort.trans (s.series.mem_keys_iff r)

theorem map_fst_report (s : StatStore) (now : Nat) :
    (s.report now).resources.map Prod.fst = s.sortedResources := by
  rw [report, List.map_map]
  exact List.map_id _

/-- **A report lists the resources strictly in order.** -/
theorem pairwise_report (s : StatStore) (now : Nat) :
    (s.report now).resources.Pairwise fun e e' => Resource.order e.1 e'.1 = .lt := by
  have hsorted : ((s.report now).resources.map Prod.fst).Pairwise
      fun r r' => Resource.order r r' = .lt := by
    rw [s.map_fst_report now]
    exact Resource.pairwise_sort s.series.nodup_keys
  exact List.pairwise_map.mp hsorted

/-- A report counts for a resource what its window of the slot counts, once. A resource that it does
not list has no traffic. -/
theorem count_report_eq (s : StatStore) (now : Nat) (r : Resource) (o : Outcome) :
    (s.report now).count r o =
      (s.window r (s.report now).slotStart
        ((s.report now).slotStart + s.grid.slotMs)).tally.count o := by
  generalize hstart : (s.report now).slotStart = start
  have hentries : (s.report now).resources =
      s.sortedResources.map fun r => (r, s.window r start (start + s.grid.slotMs)) := by
    rw [← hstart]
    rfl
  -- a resource is listed once if it has a series, and else not at all
  have hfilter : s.sortedResources.filter (· = r) = List.replicate
      (s.sortedResources.count r) r := List.filter_eq r
  rw [Report.count, hentries, List.filter_map, List.map_map]
  show ((s.sortedResources.filter (· = r)).map fun r =>
    (s.window r start (start + s.grid.slotMs)).tally.count o).sum = _
  have hnodup : s.sortedResources.Nodup := Resource.nodup_sort s.series.nodup_keys
  rw [hfilter, hnodup.count]
  split
  · simp
  · rename_i hno
    have hnone : s.get? r = none :=
      Option.not_isSome_iff_eq_none.mp fun hsome => hno ((s.mem_sortedResources r).mpr hsome)
    rw [window, hnone]
    cases o <;> rfl

/-- The slot before that of a time, where there is one, ends where the present one begins. -/
theorem slotStart_report_add (s : StatStore) (hnow : s.grid.slotMs ≤ now) :
    (s.report now).slotStart + s.grid.slotMs = s.grid.floor now := by
  have hfirst : s.grid.slotMs ≤ s.grid.floor now := by
    have hmono := s.grid.floor_mono hnow
    rwa [s.grid.floor_eq, Nat.div_self s.grid.slotMs_pos, Nat.mul_one] at hmono
  show s.grid.floor now - s.grid.slotMs + s.grid.slotMs = _
  omega

/-- Two slots are kept for longer than one, unless one is as long as a word can say. -/
theorem slotMs_lt_retentionMs {g : Grid} (hretained : 2 ≤ g.retained)
    (hslot : g.slotMs < Word.greatest) : g.slotMs < g.retentionMs := by
  have hpos := g.slotMs_pos
  have htwo : 2 * g.slotMs ≤ g.retained * g.slotMs := Nat.mul_le_mul_right _ hretained
  simp only [Grid.retentionMs, Word.mulSaturating]
  omega

/-- **A report says what the log has for the slot before the present one**, if nothing has been
written later than in the present one. -/
theorem Recorded.count_report (h : s.Recorded (fun _ => s.grid.floor now) log)
    (hretained : 2 ≤ s.grid.retained) (hslot : s.grid.slotMs < Word.greatest)
    (hnow : s.grid.slotMs ≤ now) (hword : now < Word.size) (r : Resource) (o : Outcome) :
    (s.report now).count r o =
      countIn s.grid r o (s.report now).slotStart
        ((s.report now).slotStart + s.grid.slotMs) log := by
  have hend := s.slotStart_report_add hnow
  have hspan := slotMs_lt_retentionMs hretained hslot
  have hfloor := s.grid.floor_le now
  rw [s.count_report_eq]
  exact h.count_window (by omega) (by omega) o

end StatStore

section Counting

variable (g : Grid) (r : Resource) (o : Outcome) (log : List SlotWrite)

/-- What the log has for two ranges that meet. -/
theorem countIn_consecutive {first middle stop : Nat} (hfirst : first ≤ middle)
    (hstop : middle ≤ stop) :
    countIn g r o first middle log + countIn g r o middle stop log =
      countIn g r o first stop log := by
  simp only [← sum_countOf]
  exact Finset.sum_Ico_consecutive _ hfirst hstop

/-- What the log has for slots that follow one another. Each entry lies in one of them, so that
nothing is missed and nothing counted twice. -/
theorem sum_countIn_succession (first slotMs n : Nat) :
    ((List.range n).map fun i =>
      countIn g r o (first + i * slotMs) (first + i * slotMs + slotMs) log).sum =
      countIn g r o first (first + n * slotMs) log := by
  induction n with
  | zero => simp [← sum_countOf]
  | succ n ih =>
    rw [List.range_succ, List.map_append, List.sum_append, ih, List.map_singleton,
      List.sum_singleton, countIn_consecutive g r o log (Nat.le_add_right _ _)
        (Nat.le_add_right _ _), Nat.succ_mul, Nat.add_assoc]

end Counting

/-! ## Runs with reports -/

/-- A call of a store, or a report of it. -/
inductive ReportEvent where
  | call (c : StatCall)
  | report (now : Nat)

def ReportEvent.call? : ReportEvent → Option StatCall
  | .call c => some c
  | .report _ => none

/-- A run of calls, and the reports that were built in its course. -/
structure ReportRun extends StatRun where
  /-- First to last. -/
  reports : List Report := []
  /-- When slots were written and reports were built, first to last. -/
  times : List Nat := []

namespace ReportRun

def start (slotMs retained : Nat) : ReportRun := { StatRun.start slotMs retained with }

def step (run : ReportRun) : ReportEvent → ReportRun
  | .call c => {
      toStatRun := run.toStatRun.step c
      reports := run.reports
      times := run.times ++ ((c.write? run.store).map SlotWrite.time).toList }
  | .report now => {
      run with
      reports := run.reports ++ [run.store.report now]
      times := run.times ++ [now] }

def after (run : ReportRun) (events : List ReportEvent) : ReportRun := events.foldl step run

theorem after_concat (run : ReportRun) (events : List ReportEvent) (e : ReportEvent) :
    run.after (events ++ [e]) = (run.after events).step e := List.foldl_append

theorem grid_step (run : ReportRun) (e : ReportEvent) : (run.step e).store.grid = run.store.grid := by
  cases e with
  | call c => exact run.store.grid_call c
  | report => rfl

theorem grid_after (run : ReportRun) (events : List ReportEvent) :
    (run.after events).store.grid = run.store.grid := by
  induction events using List.reverseRecOn with
  | nil => rfl
  | append_singleton events e ih => rw [after_concat, grid_step, ih]

/-- What holds of a run by a time at which nothing has been written in a later slot: the counters are
as the log says, and each report still says what the log has for its slot, which is over. -/
structure Settled (run : ReportRun) (now : Nat) : Prop where
  recorded : run.store.Recorded (fun _ => run.store.grid.floor now) run.log
  reported : ∀ report ∈ run.reports,
    report.slotStart + run.store.grid.slotMs ≤ run.store.grid.floor now ∧
      ∀ r o, report.count r o = countIn run.store.grid r o report.slotStart
        (report.slotStart + run.store.grid.slotMs) run.log

variable {run : ReportRun} {now later : Nat}

theorem settled_start (slotMs retained now : Nat) : (start slotMs retained).Settled now where
  recorded := StatStore.recorded_new slotMs retained _
  reported _ h := by cases h

theorem Settled.mono (h : run.Settled now) (hle : now ≤ later) : run.Settled later where
  recorded := h.recorded.mono fun _ => run.store.grid.floor_mono hle
  reported report hmem :=
    ⟨(h.reported report hmem).1.trans (run.store.grid.floor_mono hle), (h.reported report hmem).2⟩

/-- What is written lies in no slot that has been reported. -/
theorem Settled.call (h : run.Settled now) (c : StatCall)
    (htime : ∀ w, c.write? run.store = some w → w.time = now) :
    (run.step (.call c)).Settled now := by
  have hgrid := run.grid_step (.call c)
  constructor
  · rw [hgrid]
    exact h.recorded.call c fun w hw => Nat.le_of_eq (congrArg _ (htime w hw))
  · rw [hgrid]
    intro report hmem
    obtain ⟨hover, hcount⟩ := h.reported report hmem
    refine ⟨hover, fun r o => ?_⟩
    have hlog : (run.step (.call c)).log = run.log ++ (c.write? run.store).toList := rfl
    rw [hlog, countIn_append, ← hcount r o]
    refine (Nat.add_eq_left.mpr (List.countP_eq_zero.mpr fun w hw hin => ?_)).symm
    have hbefore := (of_decide_eq_true hin).2.2.2
    rw [htime w (Option.mem_toList.mp hw)] at hbefore
    omega

theorem Settled.report (h : run.Settled now) (hretained : 2 ≤ run.store.grid.retained)
    (hslot : run.store.grid.slotMs < Word.greatest) (hnow : run.store.grid.slotMs ≤ now)
    (hword : now < Word.size) : (run.step (.report now)).Settled now where
  recorded := h.recorded
  reported report hmem := by
    rcases List.mem_append.mp hmem with hmem | hmem
    · exact h.reported report hmem
    · rw [List.mem_singleton.mp hmem]
      exact ⟨Nat.le_of_eq (run.store.slotStart_report_add hnow),
        h.recorded.count_report hretained hslot hnow hword⟩

/-- **A run in the order of time is settled** by every time that is not before its last one. -/
theorem settled_after (slotMs retained : Nat) (events : List ReportEvent)
    (hretained : 2 ≤ (start slotMs retained).store.grid.retained)
    (hslot : (start slotMs retained).store.grid.slotMs < Word.greatest)
    (hreports : ∀ now, .report now ∈ events →
      (start slotMs retained).store.grid.slotMs ≤ now ∧ now < Word.size)
    (horder : ((start slotMs retained).after events).times.Pairwise (· ≤ ·)) {now : Nat}
    (hnow : ∀ t ∈ ((start slotMs retained).after events).times, t ≤ now) :
    ((start slotMs retained).after events).Settled now := by
  induction events using List.reverseRecOn generalizing now with
  | nil => exact settled_start slotMs retained now
  | append_singleton events e ih =>
    have hgrid := (start slotMs retained).grid_after events
    rw [after_concat] at horder hnow ⊢
    generalize (start slotMs retained).after events = run at *
    have hearlier : ∀ now, .report now ∈ events →
        (start slotMs retained).store.grid.slotMs ≤ now ∧ now < Word.size :=
      fun t h => hreports t (List.mem_append_left _ h)
    cases e with
    | call c =>
      obtain ⟨horder, -, hlast⟩ := List.pairwise_append.mp horder
      cases hw : c.write? run.store with
      | none =>
        refine (ih hearlier horder fun t ht => hnow t (List.mem_append_left _ ht)).call c
          fun w hw' => ?_
        rw [hw] at hw'
        cases hw'
      | some w =>
        have hmem : w.time ∈ ((c.write? run.store).map SlotWrite.time).toList := by simp [hw]
        have hsettled := ih hearlier horder fun t ht => hlast t ht w.time hmem
        exact (hsettled.call c fun w' hw' => by rw [Option.some.inj (hw'.symm.trans hw)]).mono
          (hnow w.time (List.mem_append_right _ hmem))
    | report t =>
      obtain ⟨horder, -, hlast⟩ := List.pairwise_append.mp horder
      have hmem : t ∈ [t] := List.mem_singleton_self t
      obtain ⟨hfirst, hword⟩ := hreports t (List.mem_append_right _ (List.mem_singleton_self _))
      have hsettled := ih hearlier horder fun t' ht' => hlast t' ht' t hmem
      exact (hsettled.report (hgrid ▸ hretained) (hgrid ▸ hslot) (hgrid ▸ hfirst) hword).mono
        (hnow t (List.mem_append_right _ hmem))

/-- Reports change nothing: the store and the log are those of the calls alone. -/
theorem toStatRun_after (slotMs retained : Nat) (events : List ReportEvent) :
    ((start slotMs retained).after events).toStatRun =
      (StatRun.start slotMs retained).after (events.filterMap ReportEvent.call?) := by
  induction events using List.reverseRecOn with
  | nil => rfl
  | append_singleton events e ih =>
    rw [after_concat, List.filterMap_append]
    cases e with
    | call c =>
      show StatRun.step _ c = (StatRun.start slotMs retained).after (_ ++ [c])
      rw [StatRun.after_concat, ih]
    | report =>
      show _ = (StatRun.start slotMs retained).after (_ ++ [])
      rw [List.append_nil]
      exact ih

/-- The counters of a run are as its log says, by every time by which everything was written. -/
theorem recorded_after (slotMs retained : Nat) (events : List ReportEvent) {now : Nat}
    (hwritten : ∀ w ∈ ((start slotMs retained).after events).log, w.time ≤ now) :
    let run := (start slotMs retained).after events
    run.store.Recorded (fun _ => run.store.grid.floor now) run.log := by
  intro run
  have hrun : run.toStatRun = _ := toStatRun_after slotMs retained events
  show run.toStatRun.store.Recorded (fun _ => run.toStatRun.store.grid.floor now) run.toStatRun.log
  rw [hrun]
  rw [toStatRun_after] at hwritten
  refine (StatRun.recorded_after slotMs retained _).mono fun r => newestWritten_le fun t ht => ?_
  obtain ⟨w, hw, rfl⟩ := List.mem_map.mp ht
  exact Grid.floor_mono _ (hwritten w (List.mem_filter.mp hw).1)

/-- **What reports count.** Two slots are kept at least, and none is as long as a word can say. A
report of a time by which everything was written lists the resources that have a series strictly in
their order, and its counters are those of the log for the slot before the present one, which is
over. If time does not go back and reports are built of slots that follow one another, they count
together what the log has in the end for all of these slots. -/
theorem reports_count_their_slots (slotMs retained : Nat) (events : List ReportEvent) :
    let run := (start slotMs retained).after events
    let g := run.store.grid
    2 ≤ g.retained → g.slotMs < Word.greatest →
      (∀ now, g.slotMs ≤ now → now < Word.size → (∀ w ∈ run.log, w.time ≤ now) →
        let report := run.store.report now
        report.slotStart = g.floor now - g.slotMs ∧
        (∀ r, r ∈ report.resources.map Prod.fst ↔ (run.store.get? r).isSome) ∧
        report.resources.Pairwise (fun e e' => Resource.order e.1 e'.1 = .lt) ∧
        ∀ e ∈ report.resources, ∀ o, e.2.tally.count o =
          countIn g e.1 o (g.floor now - g.slotMs) (g.floor now) run.log) ∧
      ((∀ now, .report now ∈ events → g.slotMs ≤ now ∧ now < Word.size) →
        run.times.Pairwise (· ≤ ·) →
        ∀ (reports : List Report) (first n : Nat), (∀ report ∈ reports, report ∈ run.reports) →
          reports.map (·.slotStart) = (List.range n).map (fun i => first + i * g.slotMs) →
          ∀ r o, (reports.map fun report => report.count r o).sum =
            countIn g r o first (first + n * g.slotMs) run.log) := by
  intro run g hretained hslot
  have hgrid : g = (start slotMs retained).store.grid := (start slotMs retained).grid_after events
  refine ⟨fun now hnow hword hwritten => ?_, fun hreports horder reports first n hmem hstarts r o => ?_⟩
  · have hrecorded : run.store.Recorded (fun _ => g.floor now) run.log :=
      recorded_after slotMs retained events hwritten
    have hend : g.floor now - g.slotMs + g.slotMs = g.floor now :=
      run.store.slotStart_report_add hnow
    have hspan : g.slotMs < g.retentionMs := StatStore.slotMs_lt_retentionMs hretained hslot
    -- two slots are retained, so the slot before the present one is still there
    have hstart : g.floor now < g.floor now - g.slotMs + g.retentionMs := by omega
    have hstop : g.floor now < Word.size := Nat.lt_of_le_of_lt (g.floor_le now) hword
    refine ⟨rfl, fun r => ?_, run.store.pairwise_report now, fun e he o => ?_⟩
    · rw [run.store.map_fst_report]
      exact run.store.mem_sortedResources r
    · obtain ⟨r, -, rfl⟩ := List.mem_map.mp he
      show (run.store.window r (g.floor now - g.slotMs)
        (g.floor now - g.slotMs + g.slotMs)).tally.count o = _
      rw [hend]
      exact hrecorded.count_window hstart hstop o
  · -- what has been reported is settled at any time past the whole run
    obtain ⟨now, hnow⟩ : ∃ now, ∀ t ∈ run.times, t ≤ now :=
      ⟨run.times.sum, fun t ht => List.le_sum_of_mem ht⟩
    have hsettled := settled_after slotMs retained events (hgrid ▸ hretained) (hgrid ▸ hslot)
      (hgrid ▸ hreports) horder hnow
    have hcounts : ∀ report ∈ reports, report.count r o =
        countIn g r o report.slotStart (report.slotStart + g.slotMs) run.log :=
      fun report h => (hsettled.reported report (hmem report h)).2 r o
    calc (reports.map fun report => report.count r o).sum
        = ((reports.map (·.slotStart)).map fun start =>
            countIn g r o start (start + g.slotMs) run.log).sum := by
          rw [List.map_map]
          exact congrArg List.sum (List.map_congr_left hcounts)
      _ = ((List.range n).map fun i => countIn g r o (first + i * g.slotMs)
            (first + i * g.slotMs + g.slotMs) run.log).sum := by
          rw [hstarts, List.map_map]
          rfl
      _ = _ := sum_countIn_succession g r o run.log first g.slotMs n

/-- Two slots of a second are kept, and three reports are built. The second resource is written first
in the third slot, after the first report, and what is written in the last slot is in none. -/
theorem reports_count_their_slots_three :
    let r := Resource.service "s"
    let run := (start 1000 2).after [.call (.incr r .completed 0), .call (.tryStart r 5 900),
      .call (.incr r .completed 900), .report 1000, .call (.incr r .completed 1999), .report 2500,
      .call (.acquire r none 100), .call (.incr .global .completed 2500), .report 3000,
      .call (.incr r .completed 3000)]
    (run.reports.map fun report => report.count r .completed).sum = 3 ∧
      (run.reports.map fun report => report.count .global .completed).sum = 1 ∧
      (run.store.report 3999).resources.map Prod.fst ≠ [] := by
  intro r run
  obtain ⟨hlast, htotal⟩ := reports_count_their_slots 1000 2
    [.call (.incr r .completed 0), .call (.tryStart r 5 900), .call (.incr r .completed 900),
      .report 1000, .call (.incr r .completed 1999), .report 2500, .call (.acquire r none 100),
      .call (.incr .global .completed 2500), .report 3000, .call (.incr r .completed 3000)]
    (by decide +kernel) (by decide +kernel)
  have hcounts := htotal (by simp; decide +kernel) (by decide +kernel) run.reports 0 3
    (fun _ h => h) (by decide +kernel)
  refine ⟨(hcounts r .completed).trans (by decide +kernel),
    (hcounts .global .completed).trans (by decide +kernel), fun hnone => ?_⟩
  have hlisted := ((hlast 3999 (by decide +kernel) (by decide) (by decide +kernel)).2.1 r).mpr
    (by decide +kernel)
  rw [hnone] at hlisted
  cases hlisted

/-- Where slots are as long as a word can say, keeping two of them is keeping one: the slot that the
report is of is dropped when the present one comes into being. -/
theorem reported_slot_is_dropped :
    let r := Resource.service "s"
    let now := Word.greatest
    let run := (StatRun.start Word.greatest 2).after [.incr r .started 0, .incr r .started now]
    let g := run.store.grid
    let report := run.store.report now
    (2 ≤ g.retained ∧ g.slotMs ≤ now ∧ run.log.map SlotWrite.time = [0, now]) ∧
      (report.slotStart, g.floor now) = (g.floor now - g.slotMs, now) ∧
      countIn g r .started (g.floor now - g.slotMs) (g.floor now) run.log = 1 ∧
      (report.resources.map fun e => (e.1, e.2.tally.count .started)) = [(r, 0)] := by
  decide +kernel

end ReportRun
end Floodgate
