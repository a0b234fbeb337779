import Floodgate.Proofs.Admission.Footprint
import Floodgate.Proofs.Admission.Run
import Floodgate.Proofs.Breaker.Monitor
import Floodgate.Proofs.Breaker.Registry
import Floodgate.Proofs.Stats.Figures

/-!
# The figures that a gate keeps

Whatever happens at a gate, the figures of all windows fit together: no more requests failed than
completed, and the average of the latencies is not above their maximum. If all requests of a resource
are held against rules that bound its concurrency, the peak is bounded as well.

The peak of a resource is at stake in three places: a slot begins with the requests in flight as its
peak, whoever it is made by, a request that is let through is counted in, and a request that takes a
unit and then finds the budget of its slot spent may have made a slot in the meantime. All of them
go back to the units that are taken, and these are granted below the ceiling of the rule only.
-/

set_option autoImplicit false

namespace Floodgate

variable {ceiling? : Resource → Option Nat}

/-! ## The limiter -/

namespace Limiter

/-- A rule that bounds concurrency, and no higher than the ceiling, if there is one. -/
def Caps (rule? : Option LimitRule) (ceiling? : Option Nat) : Prop :=
  ∀ c ∈ ceiling?, (rule?.bind LimitRule.concurrency).any (· ≤ c) = true

variable {rule : LimitRule} {stats stats' : StatStore} {resource : Resource} {now : Nat}
  {decision : LimitDecision}

theorem sound_start (hs : stats.Sound ceiling?) (rule : LimitRule) (resource : Resource) (now : Nat) :
    (start rule stats resource now).2.Sound ceiling? := by
  unfold start
  split
  · exact hs.tryStart resource _ now
  · exact hs.incr resource .started nofun now

theorem Held.sound (hd : Held rule stats resource now decision stats') (hs : stats.Sound ceiling?)
    (hcaps : Caps (some rule) (ceiling? resource)) : stats'.Sound ceiling? := by
  have hacquired : (stats.acquire resource rule.concurrency now).2.Sound ceiling? :=
    hs.acquire resource now hcaps
  cases hd with
  | crowded acquired =>
    rw [acquired] at hacquired
    exact hacquired.incr resource .blockedByLimiter nofun now
  | @allowed h leased started acquired room =>
    rw [acquired] at hacquired
    have hstarted := sound_start hacquired rule resource now
    rw [room] at hstarted
    exact hstarted.observe h now
  | @spent h leased started acquired room =>
    rw [acquired] at hacquired
    have hstarted := sound_start hacquired rule resource now
    rw [room] at hstarted
    exact (hstarted.release h).incr resource .blockedByLimiter nofun now

/-- **The limiter keeps figures in line**, if it holds a request of a resource with a ceiling against
a rule that bounds it. -/
theorem sound_permit (hs : stats.Sound ceiling?) (book : RuleBook) (candidates : List Resource)
    (now : Nat) (hcaps : Caps (resolve book candidates) (ceiling? (limited book candidates))) :
    (permit book stats candidates now).2.Sound ceiling? := by
  unfold permit
  cases hrule : resolve book candidates with
  | none =>
    rw [limited, hrule] at hcaps
    have hnone : ceiling? .global = none :=
      Option.eq_none_iff_forall_not_mem.mpr fun c hc => nomatch hcaps c hc
    exact ((hs.acquireUnbounded .global now hnone).incr .global .started nofun now).observe _ now
  | some rule =>
    rw [limited, hrule] at hcaps
    exact (held_permitUnder rule stats candidates now).sound hs hcaps

end Limiter

/-! ## The breakers -/

namespace Breaker

variable {stats : StatStore}

theorem sound_permit (hs : stats.Sound ceiling?) (b : Breaker) (now : Nat) (draw : Float) :
    (b.permit stats now draw).2.2.Sound ceiling? := by
  rw [permit_stats]
  cases (b.phase.evaluate b.rule (b.watched stats now) now draw).next with
  | none => exact hs.recordState b.resource _ now
  | some next => exact (hs.recordState b.resource next.state next.since).recordState b.resource _ now

theorem sound_onProbeOutcome (hs : stats.Sound ceiling?) (b : Breaker) (success : Bool) (now : Nat) :
    (b.onProbeOutcome success stats now).2.Sound ceiling? := by
  rw [onProbeOutcome_stats]
  cases b.phase.afterProbe? success now with
  | none => exact hs
  | some next => exact hs.recordState b.resource next.state next.since

end Breaker

namespace Registry

variable {stats : StatStore}

theorem sound_permitBy (hs : stats.Sound ceiling?) (g : Registry) (h : Handle Resource) (b : Breaker)
    (now : Nat) (draw : Float) : (g.permitBy h b stats now draw).2.2.Sound ceiling? := by
  have hasked := b.sound_permit hs now draw
  unfold permitBy
  dsimp only
  split
  · exact hasked
  · exact hasked
  · exact hasked.incr _ .blockedByBreaker nofun now

/-- **The breakers keep figures in line**: they note states, and count what they turn away. -/
theorem sound_permit (hs : stats.Sound ceiling?) (g : Registry) (book : RuleBook)
    (candidates : List Resource) (now : Nat) (draw : Float) :
    (g.permit book stats candidates now draw).2.2.Sound ceiling? := by
  rcases g.permit_cases book stats candidates now draw with
    ⟨-, hpermit⟩ | ⟨e, h, b, -, -, -, -, -, hpermit⟩
  · rw [hpermit]
    exact hs
  · rw [hpermit]
    exact sound_permitBy hs _ h b now draw

theorem sound_onProbeOutcome (hs : stats.Sound ceiling?) (g : Registry) (h : Handle Resource)
    (success : Bool) (now : Nat) : (g.onProbeOutcome h success stats now).2.Sound ceiling? := by
  unfold onProbeOutcome
  split
  · rename_i b _
    exact b.sound_onProbeOutcome hs success now
  · exact hs

end Registry

/-! ## The gate -/

namespace Gate

variable {stats : StatStore} {g g' : Gate}

/-- **An outcome is written at once**: all that is counted for it lands in one slot. -/
theorem held?_recordOutcome (hs : stats.Every fun _ x => x.Tidy stats.grid.slotMs) (r : Resource)
    (failed : Bool) (latency now : Nat) (h : Handle Resource) :
    (recordOutcome stats r failed latency now).held? h =
      if h = (stats.track r now).1 then
        some ((((stats.held? h).getD (Series.new now)).touch now).updateSlot (stats.grid.floor now)
          stats.grid.retentionMs (·.withOutcome failed latency))
      else stats.held? h := by
  -- the writes of an outcome go into one slot of one series, and so they are one write
  have htidy : (((stats.held? h).getD (Series.new now)).touch now).Tidy stats.grid.slotMs := by
    cases hheld : stats.held? h with
    | some x => exact (hs h x hheld).congr rfl rfl
    | none => exact Series.tidy_of_empty rfl
  have hret := stats.grid.retentionMs_pos
  cases failed with
  | false =>
    show ((stats.incr r .completed now).recordLatency r latency now).held? h = _
    rw [StatStore.held?_recordLatency, StatStore.track_incr, StatStore.grid_incr,
      StatStore.held?_incr]
    split
    · rw [Option.getD_some, htidy.updateSlot_updateSlot hret (·.start_incr .completed)
        (·.start_recordLatency latency)]
      rfl
    · rfl
  | true =>
    show (((stats.incr r .completed now).incr r .error now).recordLatency r latency now).held? h = _
    rw [StatStore.held?_recordLatency, StatStore.track_incr, StatStore.track_incr,
      StatStore.grid_incr, StatStore.grid_incr, StatStore.held?_incr, StatStore.track_incr,
      StatStore.grid_incr, StatStore.held?_incr]
    split
    · rw [Option.getD_some, Option.getD_some, Series.touch_updateSlot, Series.touch_touch,
        htidy.updateSlot_updateSlot hret (·.start_incr .completed) (·.start_incr .error),
        htidy.updateSlot_updateSlot hret (fun slot => (slot.incr .completed).start_incr .error)
          (·.start_recordLatency latency)]
      rfl
    · rfl

theorem sound_recordOutcome (hs : stats.Sound ceiling?) (r : Resource) (failed : Bool)
    (latency now : Nat) : (recordOutcome stats r failed latency now).Sound ceiling? := by
  have hgrid : (recordOutcome stats r failed latency now).grid = stats.grid := by
    cases failed <;> simp [recordOutcome]
  have htidy : stats.Every fun _ x => x.Tidy stats.grid.slotMs := fun h x hx => (hs h x hx).tidy
  intro h x hx
  rw [hgrid]
  rw [held?_recordOutcome htidy] at hx
  split at hx
  · rename_i e
    cases hx
    have hfound : ((stats.held? h).getD (Series.new now)).Sound stats.grid.slotMs
        (ceiling? h.key) := by
      cases hheld : stats.held? h with
      | some y => exact hs h y hheld
      | none => exact Series.sound_new _ now _
    exact (hfound.touch now).updateSlot stats.grid.retentionMs_pos (stats.grid.dvd_floor now)
      (·.start_withOutcome failed latency) fun _ hslot => hslot.withOutcome failed latency
  · exact hs h x hx

/-- A request keeps figures in line, however it is answered. Only a granted unit could raise a peak,
and units are granted below the ceiling. -/
theorem Answer.sound {identity : Identity} {now : Nat} {draw : Float} {a : Admission}
    (ha : Answer g identity now draw a g') (hs : g.stats.Sound ceiling?)
    (hcaps : Limiter.Caps (Limiter.resolve g.book identity.candidates)
      (ceiling? (Limiter.limited g.book identity.candidates))) : g'.stats.Sound ceiling? := by
  have hlimited {decision : LimitDecision} {leased : StatStore}
      (h : Limiter.permit g.book g.stats identity.candidates now = (decision, leased)) :
      leased.Sound ceiling? := by
    have hpermit := Limiter.sound_permit hs g.book identity.candidates now hcaps
    rwa [h] at hpermit
  have hasked {leased stats : StatStore} {verdict : Verdict} {breakers : Registry}
      (hs : leased.Sound ceiling?)
      (h : g.breakers.permit g.book leased identity.candidates now draw =
        (verdict, breakers, stats)) : stats.Sound ceiling? := by
    have hpermit := g.breakers.sound_permit hs g.book identity.candidates now draw
    rwa [h] at hpermit
  cases ha with
  | overLimit limited => exact hlimited limited
  | unguarded limited verdict => exact hasked (hlimited limited) verdict
  | guarded limited verdict => exact hasked (hlimited limited) verdict
  | broken limited verdict => exact (hasked (hlimited limited) verdict).release _

theorem sound_counted (hs : g.stats.Sound ceiling?) (t : Tracked) (success : Option Bool)
    (now : Nat) : (g.counted t success now).Sound ceiling? := by
  have hlease (failed : Bool) : (recordOutcome (Limiter.release g.stats t.lease) t.lease.resource
      failed (now - t.admittedAt) now).Sound ceiling? :=
    sound_recordOutcome (hs.release t.lease.series) t.lease.resource failed _ now
  unfold counted
  dsimp only
  cases t.breaker with
  | none => exact hlease _
  | some h =>
    dsimp only
    split
    · exact hlease _
    · exact sound_recordOutcome (hlease _) h.key _ _ now

theorem sound_finishAt (hs : g.stats.Sound ceiling?) (t : Tracked) (success : Option Bool)
    (now : Nat) : (g.finishAt t success now).stats.Sound ceiling? := by
  have hcounted := sound_counted hs t success now
  rw [finishAt_eq]
  split
  · exact hcounted
  · exact g.breakers.sound_onProbeOutcome hcounted _ _ now

end Gate

/-! ## Runs -/

namespace GateRun

/-- The resource that an event counts a request under, and the rule that it is held against, if any.
Without a reading of the clock nothing is counted. -/
def binding? (run : GateRun) : GateEvent → Option (Resource × Option LimitRule)
  | .enter identity _ =>
    if run.gate.clock.failing then none
    else some (Limiter.limited run.gate.book identity.candidates,
      Limiter.resolve run.gate.book identity.candidates)
  | _ => none

/-- The same of all requests of a run, first to last. -/
def bindings (run : GateRun) : List GateEvent → List (Resource × Option LimitRule)
  | [] => []
  | event :: events => (run.binding? event).toList ++ (run.step event).bindings events

theorem sound_step {run : GateRun} (hs : run.gate.stats.Sound ceiling?) (event : GateEvent)
    (hcaps : ∀ b ∈ run.binding? event, Limiter.Caps b.2 (ceiling? b.1)) :
    (run.step event).gate.stats.Sound ceiling? := by
  cases event with
  | enter identity draw =>
    show (run.gate.enter identity draw).2.stats.Sound ceiling?
    cases hf : run.gate.clock.failing with
    | true =>
      rw [Gate.enter_of_failing hf]
      exact hs
    | false =>
      rw [Gate.enter_of_working hf]
      -- a request is decided under the rule and at the resource that the hypothesis is about
      have hbinding : run.binding? (.enter identity draw) =
          some (Limiter.limited run.gate.book identity.candidates,
            Limiter.resolve run.gate.book identity.candidates) := by
        rw [binding?, if_neg (by rw [hf]; exact Bool.false_ne_true)]
      have hcapped := hcaps _ hbinding
      dsimp only at hcapped
      exact (run.gate.answer_enterAt identity run.gate.clock.now draw).sound hs hcapped
  | finish position success =>
    cases hp : run.live[position]? with
    | none =>
      rw [step_finish_of_none hp]
      exact hs
    | some p =>
      rw [step_finish_of_some hp]
      cases p with
      | untracked => exact hs
      | tracked t =>
        have hread : ({ run.gate with clock := run.gate.clock.read.2 } : Gate).stats.Sound ceiling? :=
          hs
        exact Gate.sound_finishAt hread t success (run.gate.finishTime t)
  | evict now idleMs => exact hs.evictIdle now idleMs
  | rule raw => exact hs
  | setClock now => exact hs
  | advanceClock ms => exact hs
  | failClock => exact hs

theorem sound_after (events : List GateEvent) : ∀ {run : GateRun}, run.gate.stats.Sound ceiling? →
    (∀ b ∈ run.bindings events, Limiter.Caps b.2 (ceiling? b.1)) →
    (run.after events).gate.stats.Sound ceiling? := by
  induction events with
  | nil => exact fun hs _ => hs
  | cons event events ih =>
    intro run hs hcaps
    exact ih (sound_step hs event fun b hb =>
        hcaps b (List.mem_append_left _ (Option.mem_toList.mpr hb)))
      fun b hb => hcaps b (List.mem_append_right _ hb)

/-- **The figures of every window fit together**, at every gate that a run leads to, whatever
happened there and however the clock was moved. No more requests failed than completed, and the
average latency is not above the maximum. If every request that was counted under a resource was held
against a rule with a ceiling of concurrency, none of them above a bound, no window of the resource
has a peak above it. -/
theorem figures_of_windows_fit (book : RuleBook) (slotMs retained : Nat) (clock : Clock)
    (events : List GateEvent) (r : Resource) :
    let run := start book slotMs retained clock
    let stats := (run.after events).gate.stats
    (∀ w, stats.HasWindow r w →
      w.tally.errors ≤ w.tally.completed ∧ w.averageLatency ≤ w.maxLatency) ∧
    ∀ bound, (∀ b ∈ run.bindings events, b.1 = r →
        (b.2.bind LimitRule.concurrency).any (· ≤ bound) = true) →
      ∀ w, stats.HasWindow r w → w.peak ≤ bound := by
  intro run stats
  refine ⟨fun w hw => ?_, fun bound hbound w hw => ?_⟩
  · have hsound : stats.Sound fun _ => none :=
      sound_after events (StatStore.sound_new slotMs retained) fun _ _ _ hc => by cases hc
    exact ⟨(hsound.hasWindow hw).errors_le, (hsound.hasWindow hw).average_le⟩
  · have hsound : stats.Sound fun r' => if r' = r then some bound else none := by
      refine sound_after events (StatStore.sound_new slotMs retained) fun b hb c hc => ?_
      split at hc
      · rename_i e
        cases hc
        exact hbound b hb e
      · cases hc
    exact (hsound.hasWindow hw).peak_le bound (if_pos rfl)

/-- Two requests for a service may be in flight, and one may start in a slot. The first is let
through, the second takes a unit and gives it back; in the next slot one more is let through. Both
fail, one of them after the clock went back, and then the service is evicted. -/
theorem figures_of_windows_fit_crowded :
    let shop := Resource.service "shop"
    let limit : LimitRule := { resource := shop, qps := some 1, concurrency := some 2 }
    let book := RuleBook.ofChanges [.rateLimit (.upsert limit)]
    let request : GateEvent := .enter { service := "shop" } 0.5
    let events := [.setClock 1500, request, request, .setClock 2100, request, .finish 0 (some false),
      .setClock 300, .finish 0 (some false), .evict 90000 1000]
    let stats := ((start book 1000 10 { now := 0 }).after events).gate.stats
    let last := stats.windowOf (stats.held? ⟨shop, 0⟩) 0 3000
    last.tally.errors ≤ last.tally.completed ∧ last.averageLatency ≤ last.maxLatency ∧
      last.peak ≤ 2 ∧ (last.tally.errors, last.maxLatency, last.peak) = (2, 600, 2) := by
  intro shop limit book request events stats last
  obtain ⟨hfigures, hpeak⟩ := figures_of_windows_fit book 1000 10 { now := 0 } events shop
  -- the cursor was made before the eviction
  let cursor : Cursor := { series := some ⟨shop, 0⟩, next := 0, stop := 3000, windowMs := 3000 }
  have hstop : cursor.nextStop? = some 3000 := by decide +kernel
  have hnext (stats : StatStore) : cursor.next? stats =
      some (stats.windowOf (stats.held? ⟨shop, 0⟩) 0 3000, { cursor with next := 3000 }) := by
    rw [Cursor.next?, hstop]
    rfl
  have hshown : stats.HasWindow shop last :=
    .next (fun h hh => by rw [← Option.mem_some_iff.mp hh]) (hnext stats)
  have hbound : ∀ b ∈ (start book 1000 10 { now := 0 }).bindings events, b.1 = shop →
      (b.2.bind LimitRule.concurrency).any (· ≤ 2) = true := by decide +kernel
  have hfound : (last.tally.errors, last.maxLatency, last.peak) = (2, 600, 2) := by decide +kernel
  obtain ⟨herrors, haverage⟩ := hfigures last hshown
  exact ⟨herrors, haverage, hpeak 2 hbound last hshown, hfound⟩

end GateRun
end Floodgate
