import Floodgate.Proofs.Admission.Awaited
import Floodgate.Proofs.Breaker.Probes

/-!
# The outcome of a probe and the period it belongs to

A probe reports to its breaker that it succeeded or failed, and not which probe it is. A breaker that
waits believes whoever reports. So it matters whether a probe can be out while its breaker waits for
another one.

As long as only reports end a wait, it cannot: then as many probes of a breaker are out as it waits
for (`owing_after`), which is one or none, and a breaker with a probe out has been waiting since
that was let through. There is another way out of a wait. A breaker whose rule is not detective any
more lets the next request through and closes, and the probe stays out. `GateRun.IsShut` says that
this has not happened to a breaker. Without it the outcome of an old probe can end the wait for a
younger one (`outcome_of_an_older_probe`).
-/

set_option autoImplicit false

namespace Floodgate

/-! ## Where a permit stands -/

/-- The place of a permit in the list after an event; none, if the event gives it back. Permits that
stood after one that is given back move up. -/
def GateEvent.move? (position : Nat) : GateEvent → Option Nat
  | .finish n _ =>
    if n = position then none else some (if n < position then position - 1 else position)
  | _ => some position

/-- Its place after some events. -/
def GateEvent.moveAll? (position : Nat) (events : List GateEvent) : Option Nat :=
  events.foldlM GateEvent.move? position

namespace GateRun

theorem after_append (run : GateRun) (events later : List GateEvent) :
    run.after (events ++ later) = (run.after events).after later := List.foldl_append

/-- A permit that is not given back stands where it has moved to. New permits are added at the end
and move nobody. -/
theorem live_step {run : GateRun} {event : GateEvent} {position place : Nat} {p : Permit}
    (hp : run.live[position]? = some p) (hmove : event.move? position = some place) :
    (run.step event).live[place]? = some p := by
  obtain ⟨hlt, -⟩ := List.getElem?_eq_some_iff.mp hp
  cases event with
  | enter identity draw =>
    cases hmove
    exact (List.getElem?_append_left hlt).trans hp
  | finish n success =>
    simp only [GateEvent.move?] at hmove
    split at hmove
    · cases hmove
    · rename_i hne
      cases hmove
      cases hgiven : run.live[n]? with
      | none =>
        have hbeyond := List.getElem?_eq_none_iff.mp hgiven
        rw [step_finish_of_none hgiven, if_neg (by omega)]
        exact hp
      | some q =>
        -- another permit is given back, from before this one or from behind it
        rw [step_finish_of_some hgiven, List.getElem?_eraseIdx]
        split
        · rename_i hbefore
          rw [if_neg (by omega), Nat.sub_add_cancel (by omega)]
          exact hp
        · rename_i hbehind
          rw [if_pos (by omega)]
          exact hp
  | rule | evict | setClock | advanceClock | failClock =>
    cases hmove
    exact hp

theorem live_after {p : Permit} (events : List GateEvent) :
    ∀ {run : GateRun} {position place : Nat}, run.live[position]? = some p →
      GateEvent.moveAll? position events = some place →
      (run.after events).live[place]? = some p := by
  induction events with
  | nil =>
    intro run position place hp hmove
    cases hmove
    exact hp
  | cons event events ih =>
    intro run position place hp hmove
    rw [GateEvent.moveAll?, List.foldlM_cons] at hmove
    obtain ⟨next, hnext, hmove⟩ := Option.bind_eq_some_iff.mp hmove
    exact ih (live_step hp hnext) hmove

end GateRun

/-! ## Probes that are out -/

/-- The breaker that the permit owes the outcome of a probe. It owes it for as long as it is out,
though the breaker may have moved on. -/
def Permit.probed? (p : Permit) : Option (Handle Resource) := p.tracked?.bind Tracked.probed?

/-- How many live permits owe a breaker the outcome of a probe. -/
def owing (h : Handle Resource) (live : List Permit) : Nat :=
  live.countP fun p => p.probed? = some h

theorem owing_append (h : Handle Resource) (live : List Permit) (a : Admission) :
    owing h (live ++ a.permit?.toList) =
      owing h live + if a.permit?.bind Permit.probed? = some h then 1 else 0 := by
  cases a.permit? <;> simp [owing, List.countP_append, List.countP_cons]

theorem owing_eraseIdx {live : List Permit} {n : Nat} {p : Permit} (hp : live[n]? = some p)
    (h : Handle Resource) :
    owing h live = owing h (live.eraseIdx n) + if p.probed? = some h then 1 else 0 := by
  simpa [owing] using countP_eraseIdx hp fun p => p.probed? = some h

theorem owing_pos {live : List Permit} {n : Nat} {p : Permit} {h : Handle Resource}
    (hp : live[n]? = some p) (hprobed : p.probed? = some h) : 0 < owing h live :=
  List.countP_pos_iff.mpr ⟨p, List.mem_of_getElem? hp, by simpa using hprobed⟩

/-- The event is a request that a waiting breaker lets through. A detective breaker never does that,
so its rule must have been changed while it was waiting. -/
def GateRun.passesWaiting (run : GateRun) (h : Handle Resource) : GateEvent → Bool
  | .enter identity draw =>
    decide (run.gate.breakers.Awaits h) &&
      decide ((run.gate.enter identity draw).1.permit?.bind Permit.breaker? = some h)
  | _ => false

/-- Along some events a breaker lets no request through while it waits for the outcome of its
probe. -/
def GateRun.IsShut (h : Handle Resource) (run : GateRun) : List GateEvent → Prop
  | [] => True
  | event :: events => run.passesWaiting h event = false ∧ (run.step event).IsShut h events

instance GateRun.decidableIsShut (h : Handle Resource) :
    (run : GateRun) → (events : List GateEvent) → Decidable (run.IsShut h events)
  | _, [] => isTrue trivial
  | run, event :: events =>
    have := decidableIsShut h (run.step event) events
    inferInstanceAs (Decidable (_ ∧ _))

namespace Gate

variable {g g' : Gate} {live : List Permit} {h : Handle Resource}

/-- As many permits owe a breaker the outcome of a probe as it waits for. That is none or one, and
it is what a permit would have to know to tell for which period it speaks. -/
def OwedTo (h : Handle Resource) (g : Gate) (live : List Permit) : Prop :=
  owing h live = (g.breakers.phaseOf h).state.pendingProbes

/-- A breaker waits for one outcome at most. -/
theorem pendingProbes_eq (g : Gate) (h : Handle Resource) :
    (g.breakers.phaseOf h).state.pendingProbes = if g.breakers.Awaits h then 1 else 0 := by
  rw [BreakerState.pendingProbes]
  exact if_congr Registry.awaits_iff.symm rfl rfl

/-- Giving a permit back changes no breaker but the one whose probe it is, and that only if it
waits. A breaker that does not wait passes the outcome over. -/
theorem of_phaseOf_finish_ne {p : Permit} {success : Option Bool}
    (hne : (g.finish p success).breakers.phaseOf h ≠ g.breakers.phaseOf h) :
    p.probed? = some h ∧ g.breakers.Awaits h := by
  cases p with
  | untracked => exact absurd rfl hne
  | tracked t =>
    rw [finish_tracked, finishAt_eq] at hne
    cases ht : t.probed? with
    | none =>
      rw [ht] at hne
      exact absurd rfl hne
    | some hd =>
      rw [ht] at hne
      obtain ⟨rfl, hwaits⟩ := Registry.of_phaseOf_onProbeOutcome_ne hne
      exact ⟨ht, hwaits⟩

/-- A request keeps the balance: either it is not let through by the breaker, or it is its new
probe. The third way, through a breaker that waits, is what the hypothesis excludes. -/
theorem OwedTo.answer {identity : Identity} {now : Nat} {draw : Float} {a : Admission}
    (howed : OwedTo h g live) (ha : Answer g identity now draw a g')
    (hshut : g.breakers.Awaits h → a.permit?.bind Permit.breaker? ≠ some h) :
    OwedTo h g' (live ++ a.permit?.toList) := by
  -- asking the breakers makes one wait exactly if it lets its probe through
  have hasked (leased : StatStore) :=
    g.breakers.awaits_permit_iff (h := h) g.book leased identity.candidates now draw
  rw [OwedTo, pendingProbes_eq] at howed ⊢
  rw [owing_append]
  cases ha with
  | overLimit limited => simpa [Admission.permit?] using howed
  | @unguarded lease leased stats breakers limited verdict =>
    have hiff := hasked leased
    rw [verdict] at hiff
    simpa [Admission.permit?, Permit.probed?, Permit.tracked?, Tracked.probed?, hiff] using howed
  | @guarded lease leased stats breakers hd probe limited verdict =>
    have hiff := hasked leased
    rw [verdict] at hiff
    by_cases hat : hd = h
    · -- its own breaker was not waiting, so it waits now exactly if this is its probe
      subst hat
      have hidle : ¬ g.breakers.Awaits hd := fun hw => hshut hw rfl
      rw [if_neg hidle] at howed
      cases probe <;>
        simp [Admission.permit?, Permit.probed?, Permit.tracked?, Tracked.probed?, hiff, howed,
          hidle]
    · have hprobed : (Tracked.probed? { lease, breaker := some hd, probe, admittedAt := now }) ≠
          some h := fun heq => hat (Option.some.inj (Tracked.breaker_of_probed? heq))
      simpa [Admission.permit?, Permit.probed?, Permit.tracked?, hprobed, hiff, hat] using howed
  | @broken lease leased stats breakers hd state limited verdict =>
    have hiff := hasked leased
    rw [verdict] at hiff
    simpa [Admission.permit?, hiff] using howed

theorem OwedTo.enter (howed : OwedTo h g live) (identity : Identity) (draw : Float)
    (hshut : g.breakers.Awaits h →
      (g.enter identity draw).1.permit?.bind Permit.breaker? ≠ some h) :
    OwedTo h (g.enter identity draw).2 (live ++ (g.enter identity draw).1.permit?.toList) := by
  cases hf : g.clock.failing with
  | true =>
    rw [enter_of_failing hf, OwedTo, owing_append]
    exact howed
  | false =>
    rw [enter_of_working hf] at hshut ⊢
    exact howed.answer (g.answer_enterAt identity g.clock.now draw) hshut

/-- A permit that comes back settles the wait that it owes. -/
theorem OwedTo.finish {n : Nat} {p : Permit} (howed : OwedTo h g live) (hp : live[n]? = some p)
    (success : Option Bool) : OwedTo h (g.finish p success) (live.eraseIdx n) := by
  have hgone := owing_eraseIdx hp h
  rw [OwedTo, pendingProbes_eq] at howed ⊢
  cases p with
  | untracked =>
    have hsame : g.finish .untracked success = g := rfl
    rw [hsame]
    simpa [hgone, Permit.probed?, Permit.tracked?] using howed
  | tracked t =>
    rw [finish_tracked, finishAt_eq]
    have hprobed : (Permit.tracked t).probed? = t.probed? := rfl
    rw [hprobed] at hgone
    cases ht : t.probed? with
    | none =>
      rw [ht] at hgone
      simpa [hgone] using howed
    | some hd =>
      rw [ht] at hgone
      dsimp only
      by_cases hat : hd = h
      · -- the breaker waited for this one probe, and waits for none now
        subst hat
        rw [if_neg fun hw => (Registry.awaits_onProbeOutcome_iff.mp hw).2 rfl]
        rw [hgone, if_pos rfl] at howed
        split at howed <;> omega
      · have hother : h ≠ hd := fun heq => hat heq.symm
        simpa [hgone, hat, hother, Registry.awaits_onProbeOutcome_iff] using howed

/-- Documents change no phase, so they leave the balance alone. What they can do is open the third
way. -/
theorem OwedTo.applyRule (howed : OwedTo h g live) (raw : RawRule) :
    OwedTo h (g.applyRule raw).2 live := by
  rw [OwedTo, phaseOf_applyRule]
  exact howed

end Gate

/-! ## Runs -/

namespace GateRun

/-- The balance is kept by every event but a request that passes a waiting breaker. -/
theorem owedTo_step {run : GateRun} {h : Handle Resource} (howed : run.gate.OwedTo h run.live)
    {event : GateEvent} (hshut : run.passesWaiting h event = false) :
    (run.step event).gate.OwedTo h (run.step event).live := by
  cases event with
  | enter identity draw =>
    have hidle : run.gate.breakers.Awaits h →
        (run.gate.enter identity draw).1.permit?.bind Permit.breaker? ≠ some h := by
      simpa [passesWaiting] using hshut
    exact howed.enter identity draw hidle
  | finish position success =>
    cases hp : run.live[position]? with
    | none =>
      rw [step_finish_of_none hp]
      exact howed
    | some p =>
      rw [step_finish_of_some hp]
      exact howed.finish hp success
  | rule raw => exact howed.applyRule raw
  | evict now idleMs => exact howed
  | setClock now => exact howed
  | advanceClock ms => exact howed
  | failClock => exact howed

/-- Along a run in which the breaker is shut while it waits, the balance is kept throughout. -/
theorem owedTo_after {h : Handle Resource} (events : List GateEvent) :
    ∀ {run : GateRun}, run.gate.OwedTo h run.live → run.IsShut h events →
      (run.after events).gate.OwedTo h (run.after events).live := by
  induction events with
  | nil =>
    intro run howed _
    exact howed
  | cons event events ih =>
    intro run howed hshut
    exact ih (owedTo_step howed hshut.1) hshut.2

theorem IsShut.of_append {h : Handle Resource} {events later : List GateEvent} :
    ∀ {run : GateRun}, run.IsShut h (events ++ later) → run.IsShut h events := by
  induction events with
  | nil =>
    intro run _
    trivial
  | cons event events ih =>
    intro run hshut
    exact ⟨hshut.1, ih hshut.2⟩

theorem owedTo_start (book : RuleBook) (slotMs retained : Nat) (clock : Clock)
    (h : Handle Resource) :
    (start book slotMs retained clock).gate.OwedTo h (start book slotMs retained clock).live := by
  have hidle : ¬ (start book slotMs retained clock).gate.breakers.Awaits h :=
    Registry.not_awaits_ofBook book
  rw [Gate.OwedTo, Gate.pendingProbes_eq, if_neg hidle]
  rfl

/-- **A probe that is out is waited for**, as long as its breaker is shut while it waits. By the
balance there is then no other probe of that breaker out. -/
theorem awaits_of_live (book : RuleBook) (slotMs retained : Nat) (clock : Clock)
    {events : List GateEvent} {h : Handle Resource} {position : Nat} {p : Permit}
    (hshut : (start book slotMs retained clock).IsShut h events)
    (hp : ((start book slotMs retained clock).after events).live[position]? = some p)
    (hprobed : p.probed? = some h) :
    ((start book slotMs retained clock).after events).gate.breakers.Awaits h := by
  have howed := owedTo_after events (owedTo_start book slotMs retained clock h) hshut
  have hpos := owing_pos hp hprobed
  rw [howed, Gate.pendingProbes_eq] at hpos
  split at hpos
  · assumption
  · cases hpos

/-! ## The outcome -/

/-- **An outcome speaks for its own period.** In any run with any rule documents, giving a permit
back changes no breaker but the one whose probe it is, and that one only if it waits. If this breaker
has let no request through while it was waiting, it waits since the permit was issued, and at every
moment since. -/
theorem outcome_ends_own_period (book : RuleBook) (slotMs retained : Nat) (clock : Clock)
    (before later : List GateEvent) (identity : Identity) (draw : Float) (p : Permit)
    (position : Nat) (success : Option Bool) (h : Handle Resource) :
    let first := start book slotMs retained clock
    let issued := before ++ [.enter identity draw]
    let run := first.after (issued ++ later)
    let next := run.step (.finish position success)
    ((first.after before).gate.enter identity draw).1.permit? = some p →
      GateEvent.moveAll? (first.after before).live.length later = some position →
      next.gate.breakers.phaseOf h ≠ run.gate.breakers.phaseOf h →
      p.probed? = some h ∧ run.gate.breakers.Awaits h ∧
        (first.IsShut h (issued ++ later) →
          ∀ part, part <+: later → (first.after (issued ++ part)).gate.breakers.Awaits h) := by
  intro first issued run next hp hmove hchanged
  have hissued : (first.after issued).live[(first.after before).live.length]? = some p := by
    have hlive : (first.after issued).live = (first.after before).live ++ [p] := by
      rw [after_append]
      show (first.after before).live ++ ((first.after before).gate.enter identity draw).1.permit?.toList
        = _
      rw [hp]
      rfl
    rw [hlive, List.getElem?_concat_length]
  have hat : ∀ part place, GateEvent.moveAll? (first.after before).live.length part = some place →
      (first.after (issued ++ part)).live[place]? = some p := by
    intro part place hplace
    rw [after_append]
    exact live_after part hissued hplace
  have hnow : run.live[position]? = some p := hat later position hmove
  obtain ⟨hprobed, hwaits⟩ : p.probed? = some h ∧ run.gate.breakers.Awaits h := by
    have hfinished : next.gate = run.gate.finish p success := by
      rw [show next = _ from step_finish_of_some hnow success]
    rw [hfinished] at hchanged
    exact Gate.of_phaseOf_finish_ne hchanged
  refine ⟨hprobed, hwaits, fun hshut part hpart => ?_⟩
  obtain ⟨rest, rfl⟩ := hpart
  obtain ⟨place, hplace⟩ : ∃ place,
      GateEvent.moveAll? (first.after before).live.length part = some place := by
    rw [GateEvent.moveAll?, List.foldlM_append] at hmove
    obtain ⟨place, hplace, -⟩ := Option.bind_eq_some_iff.mp hmove
    exact ⟨place, hplace⟩
  rw [← List.append_assoc] at hshut
  exact awaits_of_live book slotMs retained clock hshut.of_append (hat part place hplace) hprobed

/-- A probe is out, its rule is changed but stays detective, and another request is turned away. The
outcome of the probe closes the breaker, which has waited for it all the time. -/
theorem outcome_ends_own_period_detective :
    let rule : DegradeRule :=
      { resource := .service "s", strategy := .totalErrors 1, breakMs := 1000, resume := .detective }
    let book := RuleBook.ofChanges [.degrade (.upsert rule)]
    let raw : RawRule :=
      { kind := .degrade
        document := .obj [("type", .int 2), ("service", .str "s"), ("strategy", .int 2),
          ("exceptionCount", .int 9), ("timeWindow", .int 60), ("statInterval", .int 10),
          ("recoveryStrategy", .int 3)] }
    let request : GateEvent := .enter { service := "s" } 0.5
    let before := [request, .finish 0 (some false), request, .setClock 2000]
    let later := [.rule raw, request, .setClock 3000]
    let first := start book 1000 10 { now := 0 }
    let h : Handle Resource := ⟨.service "s", 0⟩
    ∃ p, ((first.after before).gate.enter { service := "s" } 0.5).1.permit? = some p ∧ p.isProbe ∧
      ∀ part, part <+: later → (first.after (before ++ [request] ++ part)).gate.breakers.Awaits h := by
  intro rule book raw request before later first h
  have hprobe : (((first.after before).gate.enter { service := "s" } 0.5).1.permit?.map
      Permit.isProbe) = some true := by decide +kernel
  have hmove : GateEvent.moveAll? (first.after before).live.length later = some 0 := by
    decide +kernel
  have hchanged : ((first.after (before ++ [request] ++ later)).step
      (.finish 0 (some true))).gate.breakers.phaseOf h ≠
        (first.after (before ++ [request] ++ later)).gate.breakers.phaseOf h := by decide +kernel
  have hshut : first.IsShut h (before ++ [request] ++ later) := by decide +kernel
  obtain ⟨p, hp, hisProbe⟩ := Option.map_eq_some_iff.mp hprobe
  -- spelled out, the runs are compared by what is written and not by what they come to
  simp only [first, request, before, later] at hp hmove hchanged hshut ⊢
  refine ⟨p, hp, hisProbe, ?_⟩
  exact (outcome_ends_own_period book 1000 10 { now := 0 } _ _ { service := "s" } 0.5 p 0
    (some true) h hp hmove hchanged).2.2 hshut

/-- A probe that is older than the wait. While it is out, the rule stops being detective, the next
request closes the breaker and opens it again with an error. By then the rule is detective once
more, and a second probe is let through. The good outcome of the first one closes the breaker. -/
theorem outcome_of_an_older_probe :
    let raw (recovery : Int) : RawRule :=
      { kind := .degrade
        document := .obj [("type", .int 2), ("service", .str "s"), ("strategy", .int 2),
          ("exceptionCount", .int 1), ("timeWindow", .int 1), ("statInterval", .int 10),
          ("recoveryStrategy", .int recovery)] }
    let request : GateEvent := .enter { service := "s" } 0.5
    let before := [.rule (raw 3), request, .finish 0 (some false), request, .setClock 2000]
    let later := [.rule (raw 1), request, .finish 1 (some false), .rule (raw 3), request,
      .setClock 4000, request]
    let first := start .empty 1000 10 { now := 0 }
    let run := first.after (before ++ [request] ++ later)
    let next := run.step (.finish 0 (some true))
    let h : Handle Resource := ⟨.service "s", 0⟩
    GateEvent.moveAll? (first.after before).live.length later = some 0 ∧
      run.gate.breakers.phaseOf h = ⟨.resumeDetectively, 4000⟩ ∧
      next.gate.breakers.phaseOf h = ⟨.closed, 4000⟩ ∧
      ∃ part, part <+: later ∧
        ¬ (first.after (before ++ [request] ++ part)).gate.breakers.Awaits h := by
  intro raw request before later first run next h
  refine ⟨by decide +kernel, by decide +kernel, by decide +kernel, later.take 2, ?_, ?_⟩
  · exact List.take_prefix 2 later
  · decide +kernel

end GateRun
end Floodgate
