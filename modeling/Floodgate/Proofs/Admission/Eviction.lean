import Floodgate.Proofs.Admission.Alike
import Floodgate.Proofs.Admission.Units

/-!
# Requests do not notice evictions

Take the evictions out of a run, and the requests get the same answers, as long as what is evicted
has been idle for a slot's length and for the time that any breaker looks back. The two runs go
side by side: an eviction happens in one of them alone, every other event in both, and after each
event the gates differ by their statistics alone (`GateRun.Alike.step`, `GateRun.Alike.evict`).

A request asks for the units in flight, and those an eviction never touches: a series with a unit in
flight is not evicted. So the units agree by `Accounted`, in each run for itself, as both runs have
the same permits out, but for the series that these name.

No answer comes of a request for which a breaker forms a sum that is no word, and such a request is
the end of a run (`GateRun.met`). It ends both runs or neither, since what the breaker adds up lies
in slots that an eviction spares (`GateRun.Alike.overflow?_eq`). For that reason nothing is asked of
the times here but that they do not go back.
-/

set_option autoImplicit false

namespace Floodgate

variable {g : Grid} {span now : Nat}

/-! ## Runs -/

/-- How long what an eviction drops has been idle, if the event is one. -/
def GateEvent.idleMs? : GateEvent → Option Nat
  | evict _ idleMs => some idleMs
  | _ => none

/-- The events that are no evictions. -/
def GateEvent.withoutEvictions (events : List GateEvent) : List GateEvent :=
  events.filter fun event => event.idleMs?.isNone

namespace GateRun

/-- When an event takes place. A permit that is not there comes back at no time, and neither new
rules nor what is done to the clock itself have one. -/
def time? (run : GateRun) : GateEvent → Option Nat
  | .enter .. => some run.gate.clock.now
  | .finish position _ => run.live[position]?.map fun _ => run.gate.clock.now
  | .evict now _ => some now
  | _ => none

/-- The sum that leaves the words at an event. Only a request may form one. -/
def overflow? (run : GateRun) : GateEvent → Option Overflow
  | .enter identity _ => run.gate.overflow? identity
  | _ => none

/-- The events that take place, first to last, each with the run that it meets. A request that no
answer comes of stops the program, so nothing takes place after it. -/
def met (run : GateRun) : List GateEvent → List (GateRun × GateEvent)
  | [] => []
  | event :: events =>
    (run, event) ::
      match run.overflow? event with
      | some _ => []
      | none => (run.step event).met events

/-- The times of the events that take place. -/
def times (run : GateRun) (events : List GateEvent) : List Nat :=
  (run.met events).filterMap fun m => m.1.time? m.2

/-- The rules that the events meet. -/
def books (run : GateRun) (events : List GateEvent) : List RuleBook :=
  (run.met events).map fun m => m.1.gate.book

/-- What comes of a request, and when: its answer, whichever of its successive series a resource
has, or the sum that leaves the words. -/
def shownAnswer? (run : GateRun) : GateEvent → Option (Nat × Except Overflow Admission)
  | .enter identity draw =>
    some (run.gate.clock.now, (run.gate.checkedEnter identity draw).map fun a => a.1.shown)
  | _ => none

/-- What comes of the requests that take place, first to last. -/
def shownAnswers (run : GateRun) (events : List GateEvent) :
    List (Nat × Except Overflow Admission) :=
  (run.met events).filterMap fun m => m.1.shownAnswer? m.2

theorem met_cons_of_overflow? {run : GateRun} {event : GateEvent} {sum : Overflow}
    (hsum : run.overflow? event = some sum) (events : List GateEvent) :
    run.met (event :: events) = [(run, event)] := by
  rw [met, hsum]

theorem met_cons_of_none {run : GateRun} {event : GateEvent} (hnone : run.overflow? event = none)
    (events : List GateEvent) :
    run.met (event :: events) = (run, event) :: (run.step event).met events := by
  rw [met, hnone]

/-- An eviction is no request: nothing comes of it, and it stops no run. -/
theorem shownAnswers_evict (run : GateRun) (t idleMs : Nat) (events : List GateEvent) :
    run.shownAnswers (.evict t idleMs :: events) =
      (run.step (.evict t idleMs)).shownAnswers events := by
  rw [shownAnswers, met_cons_of_none rfl]
  rfl

end GateRun

theorem Permit.resource?_shown (p : Permit) : p.shown.resource? = p.resource? := by
  cases p <;> rfl

theorem Admission.permit?_shown (a : Admission) : a.shown.permit? = a.permit?.map Permit.shown := by
  cases a <;> rfl

theorem liveOn_shown (r : Resource) (live : List Permit) :
    liveOn r (live.map Permit.shown) = liveOn r live := by
  rw [liveOn, liveOn, List.countP_map]
  congr 1
  funext p
  rw [Function.comp_apply, p.resource?_shown]

namespace GateRun

variable {run run' : GateRun} {now' : Nat} {event : GateEvent} {events : List GateEvent}

/-! ## Two runs -/

/-- Two runs differ by their evictions alone. -/
structure Alike (g : Grid) (span now : Nat) (run run' : GateRun) : Prop where
  gate : run.gate.Alike g span now run'.gate
  live : run.live.map Permit.shown = run'.live.map Permit.shown
  units : Accounted run.gate.stats run.live ∧ Accounted run'.gate.stats run'.live
  rules : run.gate.Ordered
  working : run.gate.clock.failing = false

namespace Alike

theorem mono (h : run.Alike g span now run') (hle : now ≤ now') : run.Alike g span now' run' :=
  { h with gate := { h.gate with stats := h.gate.stats.mono hle } }

theorem working' (h : run.Alike g span now run') : run'.gate.clock.failing = false :=
  h.gate.clock ▸ h.working

/-- The units in flight are those of the permits that are out, and these are the same in both runs
but for the series that they name. -/
theorem inFlight (h : run.Alike g span now run') (r : Resource) :
    run.gate.stats.inFlight r = run'.gate.stats.inFlight r := by
  rw [h.units.1.inFlight, h.units.2.inFlight, ← liveOn_shown, h.live, liveOn_shown]

/-- The units and the rules keep themselves, so an event has to be looked at for the rest alone. -/
theorem of_step (h : run.Alike g span now run') (event : GateEvent)
    (hgate : (run.step event).gate.Alike g span now (run'.step event).gate)
    (hlive : (run.step event).live.map Permit.shown = (run'.step event).live.map Permit.shown)
    (hworking : (run.step event).gate.clock.failing = false) :
    (run.step event).Alike g span now (run'.step event) :=
  ⟨hgate, hlive, ⟨h.units.1.step event, h.units.2.step event⟩, ordered_step h.rules event, hworking⟩

section Enter

variable (h : run.Alike g span now run') (hnow : run.gate.clock.now = now)
  (hspan : run.gate.book.LooksBackWithin span)

include h hnow hspan

theorem gate_overflow?_eq (identity : Identity) :
    run.gate.overflow? identity = run'.gate.overflow? identity := by
  rw [Gate.overflow?_of_working h.working, Gate.overflow?_of_working h.working', ← h.gate.clock,
    hnow]
  exact h.gate.overflowAt?_eq h.rules h.inFlight hspan identity

theorem enter {identity : Identity} (hfits : run.gate.overflow? identity = none) (draw : Float) :
    (run.gate.enter identity draw).1.shown = (run'.gate.enter identity draw).1.shown ∧
      (run.step (.enter identity draw)).Alike g span now (run'.step (.enter identity draw)) := by
  rw [Gate.overflow?_of_working h.working, hnow] at hfits
  have hanswered := h.gate.enterAt h.rules h.inFlight hspan identity hfits draw
  have hclock := (run.gate.answer_enterAt identity now draw).breakers_cases.2.1
  have hs : run.gate.enter identity draw = run.gate.enterAt identity now draw := by
    rw [Gate.enter_of_working h.working, hnow]
  have ht : run'.gate.enter identity draw = run'.gate.enterAt identity now draw := by
    rw [Gate.enter_of_working h.working', ← h.gate.clock, hnow]
  rw [← hs, ← ht] at hanswered
  rw [← hs] at hclock
  refine ⟨hanswered.1, h.of_step _ hanswered.2 ?_ (hclock ▸ h.working)⟩
  show (run.live ++ (run.gate.enter identity draw).1.permit?.toList).map Permit.shown =
    (run'.live ++ (run'.gate.enter identity draw).1.permit?.toList).map Permit.shown
  rw [List.map_append, List.map_append, h.live, ← Option.toList_map, ← Option.toList_map,
    ← Admission.permit?_shown, ← Admission.permit?_shown, hanswered.1]

theorem checkedEnter (identity : Identity) (draw : Float) :
    (run.gate.checkedEnter identity draw).map (fun a => a.1.shown) =
      (run'.gate.checkedEnter identity draw).map fun a => a.1.shown := by
  unfold Gate.checkedEnter
  rw [← h.gate_overflow?_eq hnow hspan identity]
  cases hsum : run.gate.overflow? identity with
  | some sum => rfl
  | none => exact congrArg Except.ok (h.enter hnow hspan hsum draw).1

end Enter

theorem finish (h : run.Alike g span now run') {position : Nat} {success : Option Bool}
    (hnow : ∀ t, run.time? (.finish position success) = some t → t = now) :
    (run.step (.finish position success)).Alike g span now
      (run'.step (.finish position success)) := by
  -- the same position holds a permit in both runs, if with another handle
  have hat : run.live[position]?.map Permit.shown = run'.live[position]?.map Permit.shown := by
    rw [← List.getElem?_map, ← List.getElem?_map, h.live]
  cases hp : run.live[position]? with
  | none =>
    have hp' : run'.live[position]? = none := by
      rw [hp, Option.map_none] at hat
      exact Option.map_eq_none_iff.mp hat.symm
    rw [step_finish_of_none hp, step_finish_of_none hp']
    exact h
  | some p =>
    obtain ⟨p', hp', hshown⟩ : ∃ p', run'.live[position]? = some p' ∧ p'.shown = p.shown :=
      Option.map_eq_some_iff.mp (by rw [← hat, hp, Option.map_some])
    have hclock : run.gate.clock.now = now := hnow _ (by rw [time?, hp, Option.map_some])
    refine h.of_step _ ?_ ?_ ?_
    · rw [step_finish_of_some hp, step_finish_of_some hp']
      exact h.gate.finish h.working hclock hshown.symm success
    · rw [step_finish_of_some hp, step_finish_of_some hp']
      dsimp only
      rw [← List.eraseIdx_map, ← List.eraseIdx_map, h.live]
    · rw [step_finish_of_some hp]
      cases p with
      | untracked => exact h.working
      | tracked u =>
        dsimp only
        rw [Gate.finish_of_working h.working, Gate.clock_finishAt]
        exact h.working

/-- **An eviction** happens in one of the runs alone. What it drops there has been over for so long
that no request looks at it again. -/
theorem evict (h : run.Alike g span now run') {idleMs : Nat} (hidle : span ≤ idleMs) :
    (run.step (.evict now idleMs)).Alike g span now run' where
  gate := { h.gate with stats := h.gate.stats.evictIdle hidle }
  live := h.live
  units := ⟨h.units.1.step (.evict now idleMs), h.units.2⟩
  rules := ordered_step h.rules (.evict now idleMs)
  working := h.working

section Both

variable (h : run.Alike g span now run') (hnow : ∀ t, run.time? event = some t → t = now)
  (hspan : run.gate.book.LooksBackWithin span)

include h hnow hspan

/-- A request stops both runs or neither. The sums it forms are sums over slots that are still
looked at, and those are the same. -/
theorem overflow?_eq : run.overflow? event = run'.overflow? event := by
  cases event with
  | enter identity draw => exact h.gate_overflow?_eq (hnow _ rfl) hspan identity
  | _ => rfl

theorem shownAnswer?_eq : run.shownAnswer? event = run'.shownAnswer? event := by
  cases event with
  | enter identity draw =>
    unfold shownAnswer?
    dsimp only
    rw [h.checkedEnter (hnow _ rfl) hspan, h.gate.clock]
  | _ => rfl

/-- **Any other event** happens in both runs. It meets gates that are alike, answers alike and
leaves them alike. -/
theorem step (hkept : event.idleMs? = none) (hclock : event ≠ .failClock)
    (hfits : run.overflow? event = none) :
    (run.step event).Alike g span now (run'.step event) := by
  cases event with
  | enter identity draw => exact (h.enter (hnow _ rfl) hspan hfits draw).2
  | finish position success => exact h.finish hnow
  | rule raw => exact h.of_step _ (h.gate.applyRule raw) h.live h.working
  | evict t idleMs => cases hkept
  | setClock t =>
    exact h.of_step _ { h.gate with clock := congrArg (·.set t) h.gate.clock } h.live h.working
  | advanceClock ms =>
    exact h.of_step _ { h.gate with clock := congrArg (·.advance ms) h.gate.clock } h.live h.working
  | failClock => exact absurd rfl hclock

end Both
end Alike

/-- What the evictions of a run must respect: the events come in order of time, the clock works, and
nothing is evicted that was used less than a span ago, the span being as long as any rule that an
event meets looks back. -/
structure Spares (span now : Nat) (run : GateRun) (events : List GateEvent) : Prop where
  working : .failClock ∉ events
  sorted : (now :: run.times events).Pairwise (· ≤ ·)
  idle : ∀ ms ∈ events.filterMap GateEvent.idleMs?, span ≤ ms
  lookBack : ∀ book ∈ run.books events, book.LooksBackWithin span

namespace Spares

variable (h : Spares span now run (event :: events))

include h

theorem lookBack_head : run.gate.book.LooksBackWithin span :=
  h.lookBack _ (List.mem_map.mpr ⟨(run, event), by rw [met]; exact List.mem_cons_self, rfl⟩)

theorem idle_head {ms : Nat} (hms : event.idleMs? = some ms) : span ≤ ms :=
  h.idle ms (List.mem_filterMap.mpr ⟨event, List.mem_cons_self, hms⟩)

/-- The first event has a time that is no earlier than the one before, or none, and then it may be
taken to happen at the one before. If it does not stop the run, what follows it goes on from there. -/
theorem exists_time :
    ∃ t, now ≤ t ∧ (∀ t', run.time? event = some t' → t' = t) ∧
      (run.overflow? event = none → Spares span t (run.step event) events) := by
  have hworking : .failClock ∉ events := fun hmem => h.working (List.mem_cons_of_mem event hmem)
  have hidle : ∀ ms ∈ events.filterMap GateEvent.idleMs?, span ≤ ms := fun ms hms => by
    obtain ⟨e, he, hms⟩ := List.mem_filterMap.mp hms
    exact h.idle ms (List.mem_filterMap.mpr ⟨e, List.mem_cons_of_mem event he, hms⟩)
  have hbooks (hfits : run.overflow? event = none) :
      ∀ book ∈ (run.step event).books events, book.LooksBackWithin span := fun book hbook => by
    refine h.lookBack book ?_
    rw [books, met_cons_of_none hfits]
    exact List.mem_cons_of_mem _ hbook
  have htimes (hfits : run.overflow? event = none) :
      run.times (event :: events) = (run.time? event).toList ++ (run.step event).times events := by
    rw [times, met_cons_of_none hfits, List.filterMap_cons]
    dsimp only
    cases run.time? event <;> rfl
  have hfirst : ∀ t, run.time? event = some t → now ≤ t := fun t ht => by
    refine (List.pairwise_cons.mp h.sorted).1 t (List.mem_filterMap.mpr ⟨(run, event), ?_, ht⟩)
    rw [met]
    exact List.mem_cons_self
  have hsorted := h.sorted
  cases htime : run.time? event with
  | none =>
    refine ⟨now, Nat.le_refl now, nofun, fun hfits => ⟨hworking, ?_, hidle, hbooks hfits⟩⟩
    rwa [htimes hfits, htime] at hsorted
  | some t =>
    refine ⟨t, hfirst t htime, fun t' ht' => (Option.some.inj ht').symm,
      fun hfits => ⟨hworking, ?_, hidle, hbooks hfits⟩⟩
    rw [htimes hfits, htime] at hsorted
    exact (List.pairwise_cons.mp hsorted).2

end Spares

/-- **All events.** From runs that differ by their evictions alone, the events and the events without
the evictions lead to the same answers. -/
theorem Alike.shownAnswers_eq (events : List GateEvent) :
    ∀ {run run' : GateRun} {now : Nat}, run.Alike g span now run' → Spares span now run events →
      run.shownAnswers events = run'.shownAnswers (GateEvent.withoutEvictions events) := by
  induction events with
  | nil => exact fun _ _ => rfl
  | cons event events ih =>
    intro run run' now h hspares
    obtain ⟨t, hle, hnow, hrest⟩ := hspares.exists_time
    have hthen := h.mono hle
    cases hidle : event.idleMs? with
    | some idleMs =>
      obtain ⟨t', rfl⟩ : ∃ t', event = .evict t' idleMs := by
        cases event with
        | evict t' ms => exact ⟨t', by rw [Option.some.inj hidle]⟩
        | _ => cases hidle
      cases hnow t' rfl
      rw [shownAnswers_evict]
      exact ih (hthen.evict (hspares.idle_head hidle)) (hrest rfl)
    | none =>
      have hwithout : GateEvent.withoutEvictions (event :: events) =
          event :: GateEvent.withoutEvictions events :=
        List.filter_cons_of_pos (by rw [hidle]; rfl)
      have hanswer := hthen.shownAnswer?_eq hnow hspares.lookBack_head
      have hstop := hthen.overflow?_eq hnow hspares.lookBack_head
      rw [hwithout, shownAnswers, shownAnswers]
      cases hsum : run.overflow? event with
      | some sum =>
        rw [met_cons_of_overflow? hsum, met_cons_of_overflow? (hstop ▸ hsum), List.filterMap_cons,
          List.filterMap_cons, hanswer]
      | none =>
        have hlater := ih (hthen.step hnow hspares.lookBack_head hidle
          (fun he => hspares.working (he ▸ List.mem_cons_self)) hsum) (hrest hsum)
        rw [met_cons_of_none hsum, met_cons_of_none (hstop ▸ hsum), List.filterMap_cons,
          List.filterMap_cons, hanswer]
        unfold shownAnswers at hlater
        rw [hlater]

theorem alike_start {book : RuleBook} (hb : book.Consistent) (slotMs retained : Nat) {clock : Clock}
    (hworking : clock.failing = false) (hspan : (Grid.ofGiven slotMs retained).slotMs ≤ span) :
    (start book slotMs retained clock).Alike (Grid.ofGiven slotMs retained) span 0
      (start book slotMs retained clock) where
  gate := ⟨rfl, rfl, rfl, .refl rfl hspan (StatStore.settled_new slotMs retained 0)⟩
  live := rfl
  units := ⟨.new slotMs retained, .new slotMs retained⟩
  rules := .new hb _ clock
  working := hworking

/-- **Requests do not notice evictions.** Take all evictions out of a run whose clock works and whose
times do not go back: if what they drop has been idle for a slot's length, and for as long as any
rule that an event of the run meets looks back, then the same comes of every request at the same
time: the same permit or denial, whatever series its lease is on, or no answer, for the same sum. -/
theorem evictions_are_invisible (changes : List RuleChange) (slotMs retained : Nat) (clock : Clock)
    (events : List GateEvent) :
    let run := start (RuleBook.ofChanges changes) slotMs retained clock
    let g := Grid.ofGiven slotMs retained
    clock.failing = false → .failClock ∉ events → (run.times events).Pairwise (· ≤ ·) →
      (∀ idleMs ∈ events.filterMap GateEvent.idleMs?,
        g.slotMs ≤ idleMs ∧ ∀ book ∈ run.books events, book.LooksBackWithin idleMs) →
        run.shownAnswers events = run.shownAnswers (GateEvent.withoutEvictions events) := by
  intro run g hworking hclock hsorted hidle
  by_cases hnone : events.filterMap GateEvent.idleMs? = []
  · have hwithout : GateEvent.withoutEvictions events = events :=
      List.filter_eq_self.mpr fun event hevent =>
        Option.isNone_iff_eq_none.mpr (List.filterMap_eq_nil_iff.mp hnone event hevent)
    rw [hwithout]
  · -- the shortest idle time bounds what any request looks at
    obtain ⟨span, hmem, hleast⟩ : ∃ span ∈ events.filterMap GateEvent.idleMs?,
        ∀ ms ∈ events.filterMap GateEvent.idleMs?, span ≤ ms := by
      obtain ⟨span, hspan⟩ := Option.isSome_iff_exists.mp (List.isSome_min?_of_ne_nil hnone)
      exact ⟨span, List.min?_mem hspan, fun ms hms => (List.min?_eq_some_iff.mp hspan).2 ms hms⟩
    obtain ⟨hslot, hspan⟩ := hidle span hmem
    have hrun := alike_start (RuleBook.consistent_ofChanges changes) slotMs retained hworking hslot
    have hfrom : (0 :: run.times events).Pairwise (· ≤ ·) :=
      List.pairwise_cons.mpr ⟨fun t _ => t.zero_le, hsorted⟩
    exact hrun.shownAnswers_eq events ⟨hclock, hfrom, hleast, hspan⟩

/-- A service that failed, and two evictions after it: the first spares what the breaker could still
look back to, the second leaves no series at all. -/
theorem evictions_are_invisible_dropped :
    let rule : DegradeRule :=
      { resource := .service "shop", strategy := .totalErrors 1, monitorMs := 2000 }
    let run := start (RuleBook.ofChanges [.degrade (.upsert rule)]) 1000 10 { now := 0 }
    let events : List GateEvent := [.enter { service := "shop" } 0.5, .finish 0 (some false),
      .setClock 1999, .evict 1999 2000, .setClock 2500, .evict 2500 2000,
      .enter { service := "shop" } 0.5]
    (run.after (events.take 4)).gate.stats.resources.length = 2 ∧
      (run.after (events.take 6)).gate.stats.resources = [] ∧
      run.shownAnswers events = run.shownAnswers (GateEvent.withoutEvictions events) := by
  intro rule run events
  refine ⟨by decide +kernel, by decide +kernel, ?_⟩
  have hsorted : (run.times events).Pairwise (· ≤ ·) := by decide +kernel
  have hbooks : ∀ idleMs ∈ events.filterMap GateEvent.idleMs?,
      1000 ≤ idleMs ∧ ∀ book ∈ run.books events, ∀ e ∈ book.degrades.toList,
        e.rule.enabled = true → e.rule.monitorMs ≤ idleMs := by decide +kernel
  exact evictions_are_invisible [.degrade (.upsert rule)] 1000 10 { now := 0 } events rfl
    (by simp [events]) hsorted hbooks

/-- In the last slot of all times the breaker has no window to look at, and the run ends there, though
the eviction has dropped the error that the breaker counted. -/
example :
    let rule : DegradeRule := { resource := .service "shop", strategy := .totalErrors 1 }
    let run := start (RuleBook.ofChanges [.degrade (.upsert rule)]) 1000 10 { now := 0 }
    let events : List GateEvent := [.enter { service := "shop" } 0.5, .finish 0 (some false),
      .setClock Word.greatest, .evict Word.greatest 10000, .enter { service := "shop" } 0.5]
    ((run.met events).filterMap fun m => m.1.overflow? m.2) = [.slotEnd] ∧
      ((run.met (GateEvent.withoutEvictions events)).filterMap fun m => m.1.overflow? m.2) =
        [.slotEnd] := by decide +kernel

end GateRun
end Floodgate
