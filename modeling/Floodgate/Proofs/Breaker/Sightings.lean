import Floodgate.Proofs.Breaker.Monitor
import Floodgate.Proofs.Stats.LastSeen
import Floodgate.Proofs.Stats.Retention

/-!
# What the statistics show of a breaker

A breaker notes its state in the slots of its resource: with every request that it decides, and with
every transition, so that a request that makes a transition notes it twice. Here the notes are told
apart from how they come about. `MonitorRun.sightings` lists the states after the requests and the
transitions of a run. What is noted beside them is noted at the same time before them, and so it does
not show (`MonitorRun.lastSeen_calls`).

If nothing happens out of order, a slot that is still there has not been dropped before, and a window
ends with the slot of its last sighting. So both show the state the breaker was last seen in
(`MonitorRun.states_are_shown`).
-/

set_option autoImplicit false

namespace Floodgate

/-! ## Calls of a breaker -/

/-- The calls of the store that an event comes down to. -/
def MonitorEvent.calls (run : MonitorRun) : MonitorEvent → List StatCall
  | .write c => [c]
  | .permit now draw =>
    let b := run.breaker
    let t := b.phase.evaluate b.rule (b.watched run.stats now) now draw
    (t.next.map fun next => .recordState b.resource next.state next.since).toList ++
      [.recordState b.resource (run.step (.permit now draw)).breaker.phase.state now]
  | .outcome success now =>
    let b := run.breaker
    ((b.phase.afterProbe? success now).map fun next =>
      .recordState b.resource next.state next.since).toList
  | .update .. => []

/-- The state after an event, if the event is a request or makes a transition. -/
def MonitorEvent.sighting? (run : MonitorRun) : MonitorEvent → Option Sighting
  | .permit now draw => some ⟨now, (run.step (.permit now draw)).breaker.phase.state⟩
  | .outcome success now =>
    let state := (run.step (.outcome success now)).breaker.phase.state
    if state = run.breaker.phase.state then none else some ⟨now, state⟩
  | .write .. | .update .. => none

namespace MonitorRun

variable {run : MonitorRun} {event : MonitorEvent}

/-- The calls of the store that a run comes down to. -/
def calls (run : MonitorRun) : List MonitorEvent → List StatCall
  | [] => []
  | event :: events => event.calls run ++ (run.step event).calls events

/-- The states after the requests and the transitions of a run, first to last. -/
def sightings (run : MonitorRun) : List MonitorEvent → List Sighting
  | [] => []
  | event :: events => (event.sighting? run).toList ++ (run.step event).sightings events

theorem resource_step (run : MonitorRun) (event : MonitorEvent) :
    (run.step event).breaker.resource = run.breaker.resource := by
  cases event with
  | write c => rfl
  | permit now draw => exact (run.breaker.permit_rule run.stats now draw).1
  | outcome success now => exact (run.breaker.onProbeOutcome_rule success run.stats now).1
  | update edition version => exact run.breaker.update_resource edition version

theorem stats_step (run : MonitorRun) (event : MonitorEvent) :
    (run.step event).stats = run.stats.calls (event.calls run) := by
  cases event with
  | write c => rfl
  | permit now draw =>
    refine (run.breaker.permit_stats run.stats now draw).trans ?_
    unfold MonitorEvent.calls
    dsimp only
    cases (run.breaker.phase.evaluate run.breaker.rule (run.breaker.watched run.stats now) now
      draw).next <;> rfl
  | outcome success now =>
    refine (run.breaker.onProbeOutcome_stats run.stats now success).trans ?_
    unfold MonitorEvent.calls
    dsimp only
    cases run.breaker.phase.afterProbe? success now <;> rfl
  | update edition version => rfl

theorem stats_after (events : List MonitorEvent) :
    ∀ run : MonitorRun, (run.after events).stats = run.stats.calls (run.calls events) := by
  induction events with
  | nil => exact fun _ => rfl
  | cons event events ih =>
    intro run
    have hrest := ih (run.step event)
    rw [stats_step] at hrest
    exact hrest.trans (List.foldl_append ..).symm

/-- **What shows of an event is the state after it**, in which whatever was noted before at the same
time is lost. -/
theorem lastSeen_calls_event (p : Nat → Bool) (run : MonitorRun) (event : MonitorEvent)
    (hother : ∀ state now, event ≠ .write (.recordState run.breaker.resource state now)) :
    lastSeen p ((event.calls run).filterMap (StatCall.sighting? run.breaker.resource)) =
      lastSeen p (event.sighting? run).toList := by
  cases event with
  | write c =>
    -- other writes show no state of this breaker
    have hnone : c.sighting? run.breaker.resource = none := by
      cases c with
      | recordState r state now =>
        refine if_neg fun hr => hother state now ?_
        rw [hr]
      | _ => rfl
    simp [MonitorEvent.calls, MonitorEvent.sighting?, hnone]
  | permit now draw =>
    unfold MonitorEvent.calls MonitorEvent.sighting?
    generalize (run.step (.permit now draw)).breaker.phase.state = state
    dsimp only
    cases hnext : (run.breaker.phase.evaluate run.breaker.rule
      (run.breaker.watched run.stats now) now draw).next with
    | none => simp [StatCall.sighting?]
    | some next =>
      -- the new state is written at its own time, and once more when it is shown
      have hsince : next.since = now := (Phase.evaluate_next hnext).1
      simp [StatCall.sighting?, hsince, lastSeen_pair]
  | outcome success now =>
    have hphase : (run.step (.outcome success now)).breaker.phase = _ :=
      run.breaker.onProbeOutcome_phase success run.stats now
    unfold MonitorEvent.calls MonitorEvent.sighting?
    dsimp only
    rw [hphase]
    cases hnext : run.breaker.phase.afterProbe? success now with
    | none => simp
    | some next =>
      obtain ⟨hsince, hstate⟩ := Phase.afterProbe?_next hnext
      simp [StatCall.sighting?, hsince, hstate]
  | update edition version => rfl

theorem lastSeen_calls (p : Nat → Bool) (events : List MonitorEvent) : ∀ run : MonitorRun,
    (∀ state now, .write (.recordState run.breaker.resource state now) ∉ events) →
      lastSeen p ((run.calls events).filterMap (StatCall.sighting? run.breaker.resource)) =
        lastSeen p (run.sightings events) := by
  induction events with
  | nil => exact fun _ _ => rfl
  | cons event events ih =>
    intro run hother
    have hfirst := lastSeen_calls_event p run event fun state now e =>
      hother state now (e ▸ List.mem_cons_self)
    have hrest := ih (run.step event) fun state now hmem => hother state now
      (List.mem_cons_of_mem _ (run.resource_step event ▸ hmem))
    rw [resource_step] at hrest
    rw [calls, sightings, List.filterMap_append, lastSeen_append, lastSeen_append, hfirst, hrest]

/-! ### In the order of time -/

theorem time?_of_mem_calls {c : StatCall} (hc : c ∈ event.calls run) :
    c.time? = event.time? := by
  cases event with
  | write c' => rw [List.mem_singleton.mp hc]; rfl
  | permit now draw =>
    rcases List.mem_append.mp hc with hc | hc
    · obtain ⟨next, hnext, rfl⟩ := Option.map_eq_some_iff.mp (Option.mem_toList.mp hc)
      exact congrArg some (Phase.evaluate_next hnext).1
    · rw [List.mem_singleton.mp hc]
      rfl
  | outcome success now =>
    obtain ⟨next, hnext, rfl⟩ := Option.map_eq_some_iff.mp (Option.mem_toList.mp hc)
    exact congrArg some (Phase.afterProbe?_next hnext).1
  | update edition version => cases hc

theorem mem_time?_calls (events : List MonitorEvent) : ∀ {run : MonitorRun} {t : Nat},
    t ∈ (run.calls events).filterMap StatCall.time? → t ∈ events.filterMap MonitorEvent.time? := by
  induction events with
  | nil => exact fun h => h
  | cons event events ih =>
    intro run t h
    rw [calls, List.filterMap_append] at h
    rcases List.mem_append.mp h with h | h
    · obtain ⟨c, hc, ht⟩ := List.mem_filterMap.mp h
      rw [time?_of_mem_calls hc] at ht
      exact List.mem_filterMap.mpr ⟨event, List.mem_cons_self, ht⟩
    · obtain ⟨later, hlater, ht⟩ := List.mem_filterMap.mp (ih h)
      exact List.mem_filterMap.mpr ⟨later, List.mem_cons_of_mem _ hlater, ht⟩

/-- If the events come in the order of time, so do the calls that they come down to. -/
theorem pairwise_time?_calls (events : List MonitorEvent) : ∀ run : MonitorRun,
    (events.filterMap MonitorEvent.time?).Pairwise (· ≤ ·) →
      ((run.calls events).filterMap StatCall.time?).Pairwise (· ≤ ·) := by
  induction events with
  | nil => exact fun _ _ => .nil
  | cons event events ih =>
    intro run horder
    have htime : ∀ {t}, t ∈ (event.calls run).filterMap StatCall.time? → event.time? = some t := by
      intro t ht
      obtain ⟨c, hc, ht⟩ := List.mem_filterMap.mp ht
      rwa [time?_of_mem_calls hc] at ht
    simp only [List.filterMap_eq_flatMap_toList, List.flatMap_cons] at horder
    obtain ⟨-, hrest, hle⟩ := List.pairwise_append.mp horder
    rw [← List.filterMap_eq_flatMap_toList] at hrest hle
    rw [calls, List.filterMap_append]
    refine List.pairwise_append.mpr ⟨?_, ih (run.step event) hrest, fun t ht t' ht' => ?_⟩
    · refine List.pairwise_of_forall_mem_list fun t ht t' ht' => Nat.le_of_eq ?_
      exact Option.some.inj ((htime ht).symm.trans (htime ht'))
    · exact hle t (by simp [htime ht]) t' (mem_time?_calls events ht')

theorem sightings_sublist (events : List MonitorEvent) : ∀ run : MonitorRun,
    ((run.sightings events).map Sighting.time).Sublist (events.filterMap MonitorEvent.time?) := by
  induction events with
  | nil => exact fun _ => .refl _
  | cons event events ih =>
    intro run
    have hrest := ih (run.step event)
    simp only [List.filterMap_eq_flatMap_toList, List.flatMap_cons, sightings,
      List.map_append] at hrest ⊢
    refine .append ?_ hrest
    cases event with
    | write | update => exact List.nil_sublist _
    | permit now draw => exact .refl _
    | outcome success now =>
      unfold MonitorEvent.sighting?
      dsimp only
      split
      · exact List.nil_sublist _
      · exact .refl _

/-! ### What the statistics show -/

/-- **The statistics show the state that a breaker was last seen in.** Requests, outcomes and rules come
in the order of time, and so does other traffic, if there is any; nobody else notes a state of the
breaker's resource. Then every slot that is still there has the state after the last request or
transition in it, or none if there was neither. And a window of whole slots, none of which has been
dropped, shows the state after the last request or transition in it, or none. -/
theorem states_are_shown (b : Breaker) (slotMs retained : Nat) (events : List MonitorEvent) :
    let run := (start b slotMs retained).after events
    let g := run.stats.grid
    let x := run.stats.seriesAt b.resource 0
    let seen := (start b slotMs retained).sightings events
    (events.filterMap MonitorEvent.time?).Pairwise (· ≤ ·) →
      (∀ state now, .write (.recordState b.resource state now) ∉ events) →
        (∀ place slot, x.slots.get? place = some slot →
          slot.state = lastSeen (fun t => g.floor t = place) seen) ∧
        ∀ start stop, g.slotMs ∣ start → g.slotMs ∣ stop → stop < Word.size →
          x.newest < start + min (g.retained * g.slotMs) Word.greatest →
            (run.stats.window b.resource start stop).state? =
              lastSeen (fun t => start ≤ t ∧ t < stop) seen := by
  intro run g x seen horder hother
  let calls := (start b slotMs retained).calls events
  let logged := (StatRun.start slotMs retained).after calls
  have hstats : run.stats = (StatStore.new slotMs retained).calls calls := stats_after events _
  have hstore : logged.store = run.stats := (StatRun.store_after calls _).trans hstats.symm
  -- the calls of the run show more than the sightings, but at every time the same state last
  have hshows : x.Shows g seen := by
    have hcalls := (StatStore.shows_new slotMs retained b.resource).calls calls
    rw [← hstats, List.nil_append] at hcalls
    exact (hcalls.series 0).congr_lastSeen fun p =>
      lastSeen_calls p events (start b slotMs retained) hother
  -- a slot that is there lies within the retention span, where slots show what was seen
  have hkeeps : x.Keeps g b.resource logged.log := by
    have hsorted := (pairwise_time?_calls events (start b slotMs retained) horder).sublist
      (StatRun.writtenTimes_sublist slotMs retained calls b.resource)
    have hkept := (StatRun.keeps_after slotMs retained calls b.resource hsorted).series 0
    rwa [hstore] at hkept
  refine ⟨fun place slot hget => ?_, fun start stop hstart hstop hlt hspan => ?_⟩
  · have hspan := ((hkeeps.held_iff place).mp (by rw [hget]; rfl)).2
    have hstate := hshows.state_eq hspan
    rwa [hget, Option.bind_some] at hstate
  · exact hshows.state?_of_isMergeOf (StatStore.isMergeOf_window hshows.tidy hlt) hstart hstop hspan
      (horder.sublist (sightings_sublist events _))

/-- A breaker trips in the first slot and is closed again in the fourth. In between nobody asks for a
decision, and the slot that other traffic writes there has no state. -/
theorem states_are_shown_reclosed :
    let r := Resource.service "s"
    let rule : DegradeRule := { resource := r, strategy := .totalErrors 2, breakMs := 1000 }
    let events := [MonitorEvent.write (.incr r .completed 500), .write (.incr r .error 600),
      .permit 650 0, .write (.incr r .error 700), .permit 700 0, .permit 900 0,
      .write (.incr r .completed 2200), .permit 3100 0, .write (.incr r .completed 3200)]
    let run := (start (.new r { serial := 1, rule }) 1000 10).after events
    (run.stats.window r 0 1000).state? = some .open ∧
      (run.stats.window r 1000 3000).state? = none ∧
      (run.stats.window r 0 4000).state? = some .closed := by
  intro r rule events run
  obtain ⟨-, hwindow⟩ := states_are_shown (.new r { serial := 1, rule }) 1000 10 events
    (by decide) (by simp [events])
  refine ⟨?_, ?_, ?_⟩
  · exact (hwindow 0 1000 (by decide +kernel) (by decide +kernel) (by decide)
      (by decide +kernel)).trans (by decide +kernel)
  · exact (hwindow 1000 3000 (by decide +kernel) (by decide +kernel) (by decide)
      (by decide +kernel)).trans (by decide +kernel)
  · exact (hwindow 0 4000 (by decide +kernel) (by decide +kernel) (by decide)
      (by decide +kernel)).trans (by decide +kernel)

end MonitorRun
end Floodgate
