import Floodgate.Proofs.Breaker.Run
import Floodgate.Proofs.Stats.Totals
import Floodgate.Proofs.Stats.WordRange

/-!
# What a closed breaker decides by

A breaker watches the statistics of its resource through a window of slots. Here the window is
traced back to the writes: in a run of writes and requests, in which nothing is evicted and nothing
happens later than the request in question, a closed breaker that goes by a number of errors trips
by what was written, and by nothing else (`permit_of_closed`).

The window ends with the slot of the request and reaches back for the time the rule says, which is
no more than is kept. So `StatStore.Recorded.count_window` applies, with the slot of the request for
its bound. The breaker writes as well: it notes its state in the slots. No request is counted by
that (`gains_permit`).
-/

set_option autoImplicit false

namespace Floodgate

/-! ## Runs -/

/-- What happens to a breaker and to the statistics it watches. -/
inductive MonitorEvent where
  | write (c : StatCall)
  | permit (now : Nat) (draw : Float)
  | outcome (success : Bool) (now : Nat)
  | update (edition : Edition DegradeRule) (version : Nat)

namespace MonitorEvent

/-- When it happens. Showing a rule takes no time. -/
def time? : MonitorEvent → Option Nat
  | write c => c.time?
  | permit now _ | outcome _ now => some now
  | update .. => none

/-- The increment that it is, if it is one. -/
def increment? : MonitorEvent → Option SlotWrite
  | write (.incr r o now) => some { resource := r, time := now, counted := some o }
  | _ => none

end MonitorEvent

/-- A breaker, and the statistics it watches. -/
structure MonitorRun where
  breaker : Breaker
  stats : StatStore

namespace MonitorRun

/-- A breaker that has nothing to watch yet. -/
def start (b : Breaker) (slotMs retained : Nat) : MonitorRun :=
  { breaker := b, stats := StatStore.new slotMs retained }

def step (run : MonitorRun) : MonitorEvent → MonitorRun
  | .write c => { run with stats := run.stats.call c }
  | .permit now draw =>
    let (_, breaker, stats) := run.breaker.permit run.stats now draw
    { breaker, stats }
  | .outcome success now =>
    let (breaker, stats) := run.breaker.onProbeOutcome success run.stats now
    { breaker, stats }
  | .update edition version => { run with breaker := (run.breaker.update edition version).2 }

def after (run : MonitorRun) (events : List MonitorEvent) : MonitorRun := events.foldl step run

end MonitorRun

/-- The slot that an event of the traffic writes. What a breaker notes of itself is left out, for
nothing is counted by that. -/
def MonitorEvent.write? (run : MonitorRun) : MonitorEvent → Option SlotWrite
  | .write c => c.write? run.stats
  | _ => none

/-- What the traffic of a run writes, first to last. -/
def MonitorRun.written (run : MonitorRun) : List MonitorEvent → List SlotWrite
  | [] => []
  | event :: events => (event.write? run).toList ++ (run.step event).written events

theorem MonitorRun.written_append (events later : List MonitorEvent) :
    ∀ run : MonitorRun, run.written (events ++ later) =
      run.written events ++ (run.after events).written later := by
  induction events with
  | nil => exact fun run => rfl
  | cons event events ih =>
    intro run
    have hrest := ih (run.step event)
    simp only [List.cons_append, written, hrest, List.append_assoc]
    rfl

/-! ## What a breaker writes -/

namespace Breaker

variable (b : Breaker) (stats : StatStore) (now : Nat) (draw : Float)

theorem permit_stats :
    (b.permit stats now draw).2.2 =
      ((b.phase.evaluate b.rule (b.watched stats now) now draw).next.elim stats fun next =>
        stats.recordState b.resource next.state next.since).recordState
          b.resource (b.permit stats now draw).2.1.phase.state now := by
  unfold permit
  generalize b.phase.evaluate b.rule (b.watched stats now) now draw = t
  obtain ⟨d, next⟩ := t
  cases next with
  | none => by_cases hd : d = .reject <;> simp [hd]
  | some next => by_cases hd : d = .reject <;> simp [hd, enter]

theorem onProbeOutcome_stats (success : Bool) :
    (b.onProbeOutcome success stats now).2 =
      (b.phase.afterProbe? success now).elim stats fun next =>
        stats.recordState b.resource next.state next.since := by
  unfold onProbeOutcome
  cases b.phase.afterProbe? success now <;> rfl

/-- What a breaker writes is its own state. -/
theorem booked_permit :
    StatStore.Booked (·.DecidesAt now) stats (b.permit stats now draw).2.2 [] := by
  rw [permit_stats]
  cases hnext : (b.phase.evaluate b.rule (b.watched stats now) now draw).next with
  | none => exact stats.booked_recordState b.resource _ rfl
  | some next =>
    rw [Option.elim_some, (Phase.evaluate_next hnext).1]
    have hentered : StatStore.Booked (·.DecidesAt now) stats
      (stats.recordState b.resource next.state now) [] :=
      stats.booked_recordState b.resource _ rfl
    exact hentered.trans (StatStore.booked_recordState _ b.resource _ rfl)

theorem booked_onProbeOutcome (success : Bool) :
    StatStore.Booked (·.DecidesAt now) stats (b.onProbeOutcome success stats now).2 [] := by
  rw [onProbeOutcome_stats]
  cases hnext : b.phase.afterProbe? success now with
  | none => exact .refl stats
  | some next =>
    rw [Option.elim_some, (Phase.afterProbe?_next hnext).1]
    exact stats.booked_recordState b.resource _ rfl

/-- By what a breaker notes of itself, no request is counted. -/
theorem gains_permit : stats.Gains [now] (b.permit stats now draw).2.2 [] :=
  ((b.booked_permit stats now draw).mono fun _ hc => hc.made).toGains

theorem gains_onProbeOutcome (success : Bool) :
    stats.Gains [now] (b.onProbeOutcome success stats now).2 [] :=
  ((b.booked_onProbeOutcome stats now success).mono fun _ hc => hc.made).toGains

end Breaker

namespace StatStore

variable {s : StatStore} {log : List SlotWrite} {now : Nat}

/-- The counters agree with a log, and nothing was written in a later slot than that of a time. -/
abbrev RecordedBy (now : Nat) (s : StatStore) (log : List SlotWrite) : Prop :=
  s.Recorded (fun _ => s.grid.floor now) log

theorem RecordedBy.call (h : s.RecordedBy now log) (c : StatCall)
    (htime : ∀ t, c.time? = some t → t ≤ now) :
    (s.call c).RecordedBy now (log ++ (c.write? s).toList) := by
  rw [RecordedBy, grid_call]
  exact Recorded.call h c fun w hw => s.grid.floor_mono (htime _ (c.time?_of_write? hw))

/-- Writes that count nothing are nothing to the counters. -/
theorem Gains.recordedBy {s' : StatStore} {t : Nat} (hgains : Gains [t] s s' [])
    (h : s.RecordedBy now log) (ht : t ≤ now) :
    ∃ writes, s'.RecordedBy now (log ++ writes) ∧
      ∀ r o start stop, countIn s.grid r o start stop writes = 0 := by
  obtain ⟨writes, hwrites, -, hnone⟩ := hgains.recorded h fun t' ht' _ =>
    s.grid.floor_mono (List.mem_singleton.mp ht' ▸ ht)
  refine ⟨writes, ?_, fun r o start stop => countIn_of_uncounted fun w hw hcounted => ?_⟩
  · rwa [RecordedBy, hgains.grid]
  · have hgain := List.filterMap_eq_nil_iff.mp hnone w hw
    rw [SlotWrite.gain?, hcounted] at hgain
    cases hgain

end StatStore

/-! ## The log of a run -/

namespace MonitorRun

variable {run : MonitorRun} {log : List SlotWrite} {now : Nat}

/-- **An event adds to the log what the traffic writes**, and else only writes that count nothing. -/
theorem recordedBy_step (h : run.stats.RecordedBy now log) (event : MonitorEvent)
    (htime : ∀ t, event.time? = some t → t ≤ now) :
    ∃ writes, (run.step event).stats.RecordedBy now (log ++ writes) ∧
      ∀ r o start stop, countIn run.stats.grid r o start stop writes =
        countIn run.stats.grid r o start stop (event.write? run).toList := by
  cases event with
  | write c => exact ⟨_, h.call c htime, fun _ _ _ _ => rfl⟩
  | permit t draw =>
    exact (run.breaker.gains_permit run.stats t draw).recordedBy h (htime t rfl)
  | outcome success t =>
    exact (run.breaker.gains_onProbeOutcome run.stats t success).recordedBy h (htime t rfl)
  | update edition version =>
    have hsame : (run.step (.update edition version)).stats = run.stats := rfl
    exact ⟨[], by simpa [hsame] using h, fun _ _ _ _ => rfl⟩

/-- Of the outcomes but a start, the traffic counts those of its increments. -/
theorem countIn_write? (g : Grid) (r : Resource) {o : Outcome} (ho : o ≠ .started)
    (start stop : Nat) (event : MonitorEvent) :
    countIn g r o start stop (event.write? run).toList =
      countIn g r o start stop event.increment?.toList := by
  cases event with
  | permit | outcome | update => rfl
  | write c =>
    cases c with
    | incr | acquire | acquireUnbounded | release => rfl
    | tryStart r' budget t =>
      -- a start is counted as started, which is not what is asked for here
      refine countIn_of_uncounted fun w hw => ?_
      cases List.mem_singleton.mp hw
      dsimp only
      split
      · exact fun e => ho (Option.some.inj e).symm
      · simp
    | observe hd t =>
      refine countIn_of_uncounted fun w hw => ?_
      obtain ⟨x, -, rfl⟩ := Option.map_eq_some_iff.mp (Option.mem_toList.mp hw)
      simp
    | recordLatency | recordState =>
      refine countIn_of_uncounted fun w hw => ?_
      cases List.mem_singleton.mp hw
      simp

theorem countIn_written (g : Grid) (r : Resource) {o : Outcome} (ho : o ≠ .started)
    (start stop : Nat) (events : List MonitorEvent) :
    ∀ run : MonitorRun, countIn g r o start stop (run.written events) =
      countIn g r o start stop (events.filterMap MonitorEvent.increment?) := by
  induction events with
  | nil => exact fun _ => rfl
  | cons event events ih =>
    intro run
    have hsplit : (event :: events).filterMap MonitorEvent.increment? =
        event.increment?.toList ++ events.filterMap MonitorEvent.increment? := by
      cases h : event.increment? <;> simp [h]
    rw [written, countIn_append, ih, countIn_write? g r ho, hsplit, countIn_append]

theorem grid_step (run : MonitorRun) (event : MonitorEvent) :
    (run.step event).stats.grid = run.stats.grid := by
  cases event with
  | write c => exact run.stats.grid_call c
  | permit now draw => exact (run.breaker.gains_permit run.stats now draw).grid
  | outcome success now => exact (run.breaker.gains_onProbeOutcome run.stats now success).grid
  | update => rfl

theorem grid_after (run : MonitorRun) (events : List MonitorEvent) :
    (run.after events).stats.grid = run.stats.grid := by
  induction events generalizing run with
  | nil => rfl
  | cons event events ih => exact (ih (run.step event)).trans (run.grid_step event)

/-- After a run there is a log of it, in which the traffic is all that is counted. -/
theorem recordedBy_after_written (b : Breaker) (slotMs retained : Nat) (events : List MonitorEvent)
    (htime : ∀ t ∈ events.filterMap MonitorEvent.time?, t ≤ now) :
    let run := (start b slotMs retained).after events
    ∃ log, run.stats.RecordedBy now log ∧
      ∀ r o start stop, countIn run.stats.grid r o start stop log =
        countIn run.stats.grid r o start stop ((MonitorRun.start b slotMs retained).written events) := by
  induction events using List.reverseRecOn with
  | nil => exact ⟨[], StatStore.recorded_new slotMs retained _, fun _ _ _ _ => rfl⟩
  | append_singleton events event ih =>
    rw [List.filterMap_append] at htime
    obtain ⟨log, hlog, hcount⟩ := ih fun t ht => htime t (List.mem_append_left _ ht)
    obtain ⟨writes, hwrites, hadded⟩ := recordedBy_step hlog event fun t ht =>
      htime t (List.mem_append_right _ (List.mem_filterMap.mpr ⟨event, by simp, ht⟩))
    have hlast : ((start b slotMs retained).after events).written [event] =
        (event.write? ((start b slotMs retained).after events)).toList := List.append_nil _
    simp only [after, List.foldl_append, List.foldl_cons, List.foldl_nil] at hlog hcount ⊢
    refine ⟨log ++ writes, hwrites, fun r o start stop => ?_⟩
    rw [grid_step, countIn_append, hcount r o, written_append, countIn_append, hlast]
    exact congrArg _ (hadded r o start stop)

/-- After a run, the windows that a closed breaker may look at report the increments of the run. -/
theorem recordedBy_after (b : Breaker) (slotMs retained : Nat) (events : List MonitorEvent)
    (htime : ∀ t ∈ events.filterMap MonitorEvent.time?, t ≤ now) :
    let run := (start b slotMs retained).after events
    ∃ log, run.stats.RecordedBy now log ∧
      ∀ r o, o ≠ .started → ∀ start stop, countIn run.stats.grid r o start stop log =
        countIn run.stats.grid r o start stop (events.filterMap MonitorEvent.increment?) := by
  obtain ⟨log, hlog, hcount⟩ := recordedBy_after_written b slotMs retained events htime
  refine ⟨log, hlog, fun r o ho start stop => ?_⟩
  rw [hcount r o, countIn_written _ r ho]

end MonitorRun

/-! ## The decision -/

namespace Breaker

/-- A closed breaker watches the window that ends with the present slot. -/
theorem watched_of_closed {b : Breaker} {since : Nat} (hclosed : b.phase = ⟨.closed, since⟩)
    (stats : StatStore) (now : Nat) : b.watched stats now = b.monitorWindow stats since now := by
  simp [watched, hclosed]

/-- A closed breaker decides by the window it watches. That begins no earlier than the slot in which
the breaker closed. -/
theorem permit_of_closed_window {b : Breaker} {since : Nat} (hclosed : b.phase = ⟨.closed, since⟩)
    (stats : StatStore) (now : Nat) (draw : Float) :
    let answer := b.permit stats now draw
    if b.rule.trips (b.watched stats now) then
      answer.1 = .reject ∧ answer.2.1.phase = Phase.unpack (Phase.mk .open now).pack
    else answer.1 = .permit ∧ answer.2.1.phase = b.phase := by
  dsimp only
  rw [permit_decision, permit_phase, hclosed]
  by_cases htrips : b.rule.trips (b.watched stats now)
  · simp [Phase.evaluate, htrips, Phase.enter]
  · simp [Phase.evaluate, htrips, Phase.stay]

theorem trips_totalErrors {rule : DegradeRule} {n : Nat} (h : rule.strategy = .totalErrors n)
    (w : Window) :
    rule.trips w ↔ 1 ≤ w.tally.count .completed ∧ rule.minRequests ≤ w.tally.count .completed ∧
      n ≤ w.tally.count .error := by
  simp only [DegradeRule.trips, h, Bool.and_eq_true, bne_iff_ne, decide_eq_true_eq, and_assoc,
    Tally.count, Nat.one_le_iff_ne_zero]

end Breaker

namespace MonitorRun

/-- **A closed breaker trips by what was written.** What decides are the requests and the errors
written in the slots that begin no longer before the end of the present slot than the rule says,
and not before the slot in which the breaker was closed. Nothing that happened may be later than
the request; whether it came in order does not matter. -/
theorem permit_of_closed (b : Breaker) (slotMs retained : Nat) (events : List MonitorEvent)
    (now since n : Nat) (draw : Float) :
    let run := (start b slotMs retained).after events
    let g := run.stats.grid
    let rule := run.breaker.rule
    let windowStop := g.floor now + g.slotMs
    let windowStart := max (g.floor since) (windowStop - rule.monitorMs)
    let written := events.filterMap MonitorEvent.increment?
    let completed := countIn g run.breaker.resource .completed windowStart windowStop written
    let errors := countIn g run.breaker.resource .error windowStart windowStop written
    let answer := run.breaker.permit run.stats now draw
    g.slotMs < Word.size → rule.monitorMs ≤ g.retained * g.slotMs →
      rule.strategy = .totalErrors n →
      (∀ t ∈ events.filterMap MonitorEvent.time?, t ≤ now) → now < Phase.timeSize →
      run.breaker.phase = ⟨.closed, since⟩ →
      if 1 ≤ completed ∧ rule.minRequests ≤ completed ∧ n ≤ errors then
        answer.1 = .reject ∧ answer.2.1.phase = ⟨.open, now⟩
      else answer.1 = .permit ∧ answer.2.1.phase = ⟨.closed, since⟩ := by
  intro run g rule windowStop windowStart written completed errors answer hslot hkept hstrategy
    htime hnow hclosed
  -- the log also has what requests wrote in passing, which counts neither completions nor errors
  obtain ⟨log, hlog, hcount⟩ := recordedBy_after b slotMs retained events htime
  have hstop : windowStop < Word.size :=
    g.floor_add_slotMs_lt hslot (hnow.trans (by decide))
  -- the rule looks back no further than slots are kept, even where the span is cut off at a word
  have hstart : g.floor now < windowStart + g.retentionMs := by
    have := g.slotMs_pos
    have := g.floor_le now
    simp only [Grid.retentionMs, Word.mulSaturating, Word.greatest, Phase.timeSize] at hnow ⊢
    omega
  have hwindow : run.breaker.monitorWindow run.stats since now =
      run.stats.window run.breaker.resource windowStart windowStop := by
    rw [run.breaker.monitorWindow_eq run.stats since now hstop, Nat.max_comm]
  have hseen : ∀ o, o ≠ .started →
      (run.breaker.monitorWindow run.stats since now).tally.count o =
        countIn g run.breaker.resource o windowStart windowStop written := fun o ho => by
    rw [hwindow, hlog.count_window hstart hstop o]
    exact hcount _ o ho _ _
  have htrips := Breaker.trips_totalErrors hstrategy
    (run.breaker.monitorWindow run.stats since now)
  rw [hseen .completed (by decide), hseen .error (by decide)] at htrips
  have hdecided := Breaker.permit_of_closed_window hclosed run.stats now draw
  rw [Breaker.watched_of_closed hclosed, if_congr htrips rfl rfl, hclosed,
    Phase.unpack_pack hnow] at hdecided
  exact hdecided

/-- A breaker that tripped and was closed again. What made it trip lies within the time of the rule,
but is older than the slot that it was closed in, so it counts no longer. The request written last
belongs to that slot and makes the second of two. -/
theorem permit_of_closed_reclosed :
    let r := Resource.service "s"
    let rule : DegradeRule := {
      resource := r, strategy := .totalErrors 2, minRequests := 2, breakMs := 1000 }
    let events := [MonitorEvent.write (.incr r .completed 500), .write (.incr r .completed 500),
      .write (.incr r .error 600), .write (.incr r .error 600), .permit 700 0, .permit 2100 0,
      .write (.incr r .error 2200), .write (.incr r .error 2200),
      .write (.incr r .completed 2300), .permit 2400 0, .write (.incr r .completed 2050)]
    let run := (start (.new r { serial := 1, rule }) 1000 10).after events
    run.breaker.phase = ⟨.closed, 2100⟩ ∧ (run.breaker.permit run.stats 3400 0).1 = .reject ∧
      (run.breaker.permit run.stats 3400 0).2.1.phase = ⟨.open, 3400⟩ := by
  refine ⟨by decide +kernel, ?_⟩
  refine (iff_of_eq (if_pos ?_)).mp (permit_of_closed _ 1000 10 _ 3400 2100 2 0 (by decide)
    (by decide +kernel) rfl (by decide) (by decide) (by decide +kernel))
  decide +kernel

end MonitorRun
end Floodgate
