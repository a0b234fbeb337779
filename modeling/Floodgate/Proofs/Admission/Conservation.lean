import Floodgate.Proofs.Admission.Units
import Floodgate.Proofs.Breaker.Monitor
import Floodgate.Proofs.Breaker.Registry
import Floodgate.Proofs.Stats.Totals

/-!
# Traffic is conserved

Beside a run of a gate stands its journal: which requests came and what they were answered, and
which permits came back with which outcome. The journal knows neither slots nor series, so it says
what the counters of a resource should add up to. `GateRun.traffic_is_conserved` is that they do, as
long as no slot is dropped.

The counters are followed through the gate by the calls that it makes (`StatStore.Booked`), and
through a run by their gains (`StatStore.Gains`). A request is counted at most twice, when it starts
and when a breaker turns it away; a permit that comes back is counted under its resource and under
that of its breaker, and once only if they are the same. This is `GateEntry.gains`, and the
functions of the gate, the limiter and the breakers are shown to count no more and no less. What has
started is then set against the permits that are out, which is a fact about the journal alone
(`leased_after`).
-/

set_option autoImplicit false

namespace Floodgate

/-! ## The journal -/

/-- The resource that a request was leased on, if the limiter let it through. -/
def LimitDecision.leased? : LimitDecision → Option Resource
  | .allowed lease => some lease.resource
  | .denied .. => none

/-- A permit is counted under the resource of its lease, and under that of its breaker. -/
def Tracked.countsFor (t : Tracked) (r : Resource) : Bool :=
  t.lease.resource = r || t.breaker.map Handle.key = some r

/-- What happened at a gate, at a time. -/
inductive GateEntry where
  /-- A request came, was leased on a resource or not, and got an answer. -/
  | asked (time : Nat) (leased : Option Resource) (answer : Admission)
  /-- A permit came back, with the outcome of its request or without. -/
  | returned (time : Nat) (t : Tracked) (success : Option Bool)

namespace GateEntry

def time : GateEntry → Nat
  | asked time _ _ => time
  | returned time _ _ => time

variable (r : Resource)

def isLeasedOn : GateEntry → Bool
  | asked _ leased _ => leased = some r
  | returned .. => false

/-- A request that was leased on the resource, and then turned away by a breaker. -/
def isTurnedAwayOn : GateEntry → Bool
  | asked _ leased answer => leased = some r && answer.permit?.isNone
  | returned .. => false

/-- A denial by the limiter, bound to the resource. -/
def isLimitedOn : GateEntry → Bool
  | asked _ _ answer => answer.reason?.any fun
    | .rateLimit r' _ => r' = r
    | .circuitBreaker .. => false
  | returned .. => false

/-- A rejection by the breaker of the resource. -/
def isBrokenOn : GateEntry → Bool
  | asked _ _ answer => answer.reason?.any fun
    | .rateLimit .. => false
    | .circuitBreaker r' _ => r' = r
  | returned .. => false

/-- A permit that was leased on the resource, and has come back. -/
def isFinishedOn : GateEntry → Bool
  | asked .. => false
  | returned _ t _ => t.lease.resource = r

/-- A permit that has come back, and is counted under the resource. -/
def isCompletedOn : GateEntry → Bool
  | asked .. => false
  | returned _ t _ => t.countsFor r

/-- One whose request failed. -/
def isFailedOn : GateEntry → Bool
  | asked .. => false
  | returned _ t success => success = some false && t.countsFor r

end GateEntry

namespace GateRun

/-- The entry of an event in the journal. -/
def entry? (run : GateRun) : GateEvent → Option GateEntry
  | .enter identity draw =>
    let now := run.gate.clock.now
    let decision := (Limiter.permit run.gate.book run.gate.stats identity.candidates now).1
    some (.asked now decision.leased? (run.gate.enter identity draw).1)
  | .finish position success =>
    (run.live[position]?.bind Permit.tracked?).map fun t =>
      .returned run.gate.clock.now t success
  | _ => none

/-- The journal of a run, first to last. -/
def journal (run : GateRun) : List GateEvent → List GateEntry
  | [] => []
  | event :: events => (run.entry? event).toList ++ (run.step event).journal events

end GateRun

/-- Neither an eviction nor a reading of the clock that fails. -/
def GateEvent.isSteady : GateEvent → Bool
  | .evict .. | .failClock => false
  | _ => true

/-! ## What is counted -/

/-- What is counted when a request is turned away. -/
def Blocked.gain : Blocked → Resource × Outcome
  | .rateLimit r _ => (r, .blockedByLimiter)
  | .circuitBreaker r _ => (r, .blockedByBreaker)

/-- What is counted for the outcome of a request under a resource. -/
def outcomeGains (r : Resource) (failed : Bool) : List (Resource × Outcome) :=
  (r, .completed) :: if failed then [(r, .error)] else []

/-- What is counted for an entry of the journal. -/
def GateEntry.gains : GateEntry → List (Resource × Outcome)
  | asked _ leased answer =>
    (leased.map fun r => (r, .started)).toList ++ (answer.reason?.map Blocked.gain).toList
  | returned _ t success =>
    let failed := decide (success = some false)
    outcomeGains t.lease.resource failed ++
      match t.breaker with
      | none => []
      | some h => if h.key = t.lease.resource then [] else outcomeGains h.key failed

namespace Limiter

variable {rule : LimitRule} {book : RuleBook} {stats stats' : StatStore} {resource : Resource}
  {candidates : List Resource} {now : Nat} {decision : LimitDecision}

/-- What is counted for a decision of the limiter. -/
def decisionGains : LimitDecision → List (Resource × Outcome)
  | .allowed lease => [(lease.resource, .started)]
  | .denied r _ _ => [(r, .blockedByLimiter)]

theorem booked_start (rule : LimitRule) (stats : StatStore) (resource : Resource) (now : Nat) :
    StatStore.Booked (·.CountsAt now) stats (start rule stats resource now).2
      (if (start rule stats resource now).1 then [(resource, .started)] else []) := by
  unfold start
  split
  · exact stats.booked_tryStart resource _ rfl
  · exact stats.booked_incr resource .started rfl

theorem Held.booked (hd : Held rule stats resource now decision stats') :
    StatStore.Booked (·.CountsAt now) stats stats' (decisionGains decision) := by
  have hacquire : StatStore.Booked (·.CountsAt now) stats
    (stats.acquire resource rule.concurrency now).2 [] :=
    stats.booked_acquire resource rule.concurrency rfl
  cases hd with
  | @crowded asked acquired =>
    rw [acquired] at hacquire
    exact hacquire.trans (asked.booked_incr resource .blockedByLimiter rfl)
  | @allowed h leased started acquired room =>
    have hstart := booked_start rule leased resource now
    rw [acquired] at hacquire
    rw [room] at hstart
    exact (hacquire.trans hstart).trans (started.booked_observe h rfl)
  | @spent h leased started acquired room =>
    have hstart := booked_start rule leased resource now
    rw [acquired] at hacquire
    rw [room] at hstart
    have hreleased := (hacquire.trans hstart).trans (started.booked_release h trivial)
    exact hreleased.trans ((started.release h).booked_incr resource .blockedByLimiter rfl)

/-- **The limiter counts each request once**, as started or as denied. -/
theorem booked_permit (book : RuleBook) (stats : StatStore) (candidates : List Resource)
    (now : Nat) :
    StatStore.Booked (·.CountsAt now) stats (permit book stats candidates now).2
      (decisionGains (permit book stats candidates now).1) := by
  unfold permit
  split
  · have hacquire : StatStore.Booked (·.CountsAt now) stats
      (stats.acquireUnbounded .global now).2 [] :=
      stats.booked_acquireUnbounded .global rfl
    have hstart := hacquire.trans (StatStore.booked_incr _ .global .started rfl)
    exact hstart.trans (StatStore.booked_observe _ _ rfl)
  · rename_i rule _
    exact (held_permitUnder rule stats candidates now).booked

end Limiter

/-! Of what the breakers write, only a rejection is counted. -/

namespace Registry

/-- What is counted for a verdict of the breakers. -/
def verdictGains (g : Registry) : Verdict → List (Resource × Outcome)
  | .reject h _ => [(g.resourceOf h, .blockedByBreaker)]
  | _ => []

/-- A breaker that stands in for the one behind a handle. -/
theorem resourceOf_modify {g : Registry} {h : Handle Resource} {b : Breaker}
    (hb : g.held? h = some b) (b' : Breaker) :
    resourceOf { breakers := g.breakers.modify h fun _ => b' } h = b'.resource := by
  have hheld : held? { breakers := g.breakers.modify h fun _ => b' } h = some b' := by
    rw [held?, Roster.get?_modify, if_pos rfl]
    exact congrArg (Option.map fun _ => b') hb
  rw [resourceOf, hheld]
  rfl

variable (g : Registry) (stats : StatStore) (now : Nat)

theorem booked_permitBy {g : Registry} {h : Handle Resource} {b : Breaker} (hb : g.held? h = some b)
    (draw : Float) :
    let asked := g.permitBy h b stats now draw
    StatStore.Booked (·.DecidesAt now) stats asked.2.2 (asked.2.1.verdictGains asked.1) := by
  have hasked := b.booked_permit stats now draw
  unfold permitBy
  dsimp only
  split
  · exact hasked
  · exact hasked
  · -- the breaker that is told of its rejection is the one behind the handle
    rw [verdictGains, resourceOf_modify hb]
    exact hasked.trans (StatStore.booked_incr _ _ .blockedByBreaker rfl)

/-- **Each rejection is counted once**, under the resource of the breaker. -/
theorem booked_permit (book : RuleBook) (candidates : List Resource) (draw : Float) :
    let asked := g.permit book stats candidates now draw
    StatStore.Booked (·.DecidesAt now) stats asked.2.2 (asked.2.1.verdictGains asked.1) := by
  rcases g.permit_cases book stats candidates now draw with
    ⟨-, hpermit⟩ | ⟨e, h, b, -, -, -, hb, -, hpermit⟩
  · rw [hpermit]
    exact .refl stats
  · rw [hpermit]
    exact booked_permitBy stats now hb draw

theorem booked_onProbeOutcome (h : Handle Resource) (success : Bool) :
    StatStore.Booked (·.DecidesAt now) stats (g.onProbeOutcome h success stats now).2 [] := by
  unfold onProbeOutcome
  split
  · exact Breaker.booked_onProbeOutcome _ stats now success
  · exact .refl stats

end Registry

namespace Gate

theorem booked_recordOutcome (stats : StatStore) (r : Resource) (failed : Bool)
    (latency now : Nat) :
    StatStore.Booked (·.MadeAt now) stats (recordOutcome stats r failed latency now)
      (outcomeGains r failed) := by
  have hcompleted : StatStore.Booked (·.MadeAt now) stats (stats.incr r .completed now)
    [(r, .completed)] := stats.booked_incr r .completed rfl
  unfold recordOutcome outcomeGains
  cases failed with
  | false => exact hcompleted.trans (StatStore.booked_recordLatency _ r latency rfl)
  | true =>
    have hfailed := hcompleted.trans (StatStore.booked_incr _ r .error rfl)
    exact hfailed.trans (StatStore.booked_recordLatency _ r latency rfl)

variable {g g' : Gate}

/-- **A request is counted as the journal says.** The journal has only the answer and the lease, and
these tell all that was counted. -/
theorem Answer.booked {identity : Identity} {now : Nat} {draw : Float} {a : Admission}
    (ha : Answer g identity now draw a g') :
    let decision := (Limiter.permit g.book g.stats identity.candidates now).1
    StatStore.Booked (·.DecidesAt now) g.stats g'.stats
      (GateEntry.asked now decision.leased? a).gains := by
  -- the limiter books first and the breakers after it, and a lease that goes back books nothing
  have hlimiter := (Limiter.booked_permit g.book g.stats identity.candidates now).mono
    fun _ hc => hc.decides
  have hasked (leased : StatStore) :=
    g.breakers.booked_permit leased now g.book identity.candidates draw
  cases ha with
  | overLimit limited =>
    rw [limited] at hlimiter ⊢
    exact hlimiter
  | @unguarded lease leased stats breakers limited verdict =>
    have hverdict := hasked leased
    rw [limited] at hlimiter ⊢
    rw [verdict] at hverdict
    exact hlimiter.trans hverdict
  | @guarded lease leased stats breakers h probe limited verdict =>
    have hverdict := hasked leased
    rw [limited] at hlimiter ⊢
    rw [verdict] at hverdict
    exact hlimiter.trans hverdict
  | @broken lease leased stats breakers h state limited verdict =>
    have hverdict := hasked leased
    rw [limited] at hlimiter ⊢
    rw [verdict] at hverdict
    have hrejected := hlimiter.trans hverdict
    rw [Registry.verdictGains] at hrejected
    simp only [GateEntry.gains, Admission.reason?, Option.map_some, breakerDenial_reason]
    exact hrejected.trans (stats.booked_release lease.series trivial)

/-- **A permit that comes back is counted as the journal says**, whoever is told of it. -/
theorem booked_finishAt (g : Gate) (t : Tracked) (success : Option Bool) (now : Nat) :
    StatStore.Booked (·.MadeAt now) g.stats (g.finishAt t success now).stats
      (GateEntry.returned now t success).gains := by
  have hcounted : StatStore.Booked (·.MadeAt now) g.stats (g.counted t success now)
      (GateEntry.returned now t success).gains := by
    -- the outcome is booked once or twice, by whether the breaker has a resource of its own
    have hreleased : StatStore.Booked (·.MadeAt now) g.stats (Limiter.release g.stats t.lease) [] :=
      g.stats.booked_release t.lease.series trivial
    have hlease := hreleased.trans (booked_recordOutcome _ t.lease.resource
      (decide (success = some false)) (now - t.admittedAt) now)
    simp only [counted, GateEntry.gains]
    cases t.breaker with
    | none => simpa using hlease
    | some h =>
      dsimp only
      split
      · simpa using hlease
      · exact hlease.trans (booked_recordOutcome _ h.key _ _ now)
  rw [finishAt_eq]
  split
  · exact hcounted
  · rename_i h _
    have htold := hcounted.trans ((g.breakers.booked_onProbeOutcome (g.counted t success now) now h
      (success.getD false)).mono fun _ hc => hc.made)
    rwa [List.append_nil] at htold

end Gate

/-! ## Steady runs -/

/-- What a steady event comes to, as long as the clock can be read: nothing that anybody counts, an
answer, or a permit that comes back. -/
inductive GateRun.Entered (run : GateRun) : Option GateEntry → GateRun → Prop where
  | nothing {next : GateRun} (stats : next.gate.stats = run.gate.stats)
      (clock : next.gate.clock.failing = run.gate.clock.failing)
      (live : ∀ r, liveOn r next.live = liveOn r run.live) : Entered run none next
  | asked {identity : Identity} {draw : Float} {answer : Admission} {gate : Gate}
      (answered : Gate.Answer run.gate identity run.gate.clock.now draw answer gate) :
      Entered run
        (some (.asked run.gate.clock.now
          (Limiter.permit run.gate.book run.gate.stats identity.candidates
            run.gate.clock.now).1.leased? answer))
        { gate, live := run.live ++ answer.permit?.toList }
  | returned {position : Nat} {t : Tracked} (out : run.live[position]? = some (.tracked t))
      (success : Option Bool) :
      Entered run (some (.returned run.gate.clock.now t success))
        { gate := run.gate.finishAt t success run.gate.clock.now
          live := run.live.eraseIdx position }

namespace GateRun

variable {run next : GateRun} {entry : Option GateEntry}

theorem entered_step (hf : run.gate.clock.failing = false) {event : GateEvent}
    (hsteady : event.isSteady = true) : run.Entered (run.entry? event) (run.step event) := by
  cases event with
  | enter identity draw =>
    have hanswered := run.gate.answer_enterAt identity run.gate.clock.now draw
    rw [← Gate.enter_of_working hf] at hanswered
    exact .asked hanswered
  | finish position success =>
    -- only a permit that was counted when it was given makes an entry when it comes back
    have hentry : run.entry? (.finish position success) =
        (run.live[position]?.bind Permit.tracked?).map fun t =>
          .returned run.gate.clock.now t success := rfl
    cases hp : run.live[position]? with
    | none =>
      rw [hentry, hp, step_finish_of_none hp]
      exact .nothing rfl rfl fun _ => rfl
    | some p =>
      rw [hentry, hp, step_finish_of_some hp]
      cases p with
      | untracked => exact .nothing rfl rfl fun r => (liveOn_eraseIdx hp r).symm
      | tracked t =>
        rw [Gate.finish_of_working hf]
        exact .returned hp success
  | rule raw => exact .nothing rfl rfl fun _ => rfl
  | setClock now => exact .nothing rfl rfl fun _ => rfl
  | advanceClock ms => exact .nothing rfl rfl fun _ => rfl
  | evict => cases hsteady
  | failClock => cases hsteady

theorem Entered.working (h : run.Entered entry next) (hf : run.gate.clock.failing = false) :
    next.gate.clock.failing = false := by
  cases h with
  | nothing stats clock live => exact clock.trans hf
  | asked answered =>
    obtain ⟨-, hclock, -⟩ := answered.breakers_cases
    exact hclock ▸ hf
  | @returned position t out success =>
    rw [Gate.clock_finishAt]
    exact hf

theorem Entered.gains (h : run.Entered entry next) :
    run.gate.stats.Gains (entry.toList.map GateEntry.time) next.gate.stats
      (entry.toList.flatMap GateEntry.gains) := by
  cases h with
  | nothing stats clock live =>
    rw [stats]
    exact .refl [] run.gate.stats
  | asked answered =>
    rw [Option.toList_some, List.flatMap_singleton]
    exact (answered.booked.mono fun _ hc => hc.made).toGains
  | @returned position t out success =>
    rw [Option.toList_some, List.flatMap_singleton]
    exact (run.gate.booked_finishAt t success run.gate.clock.now).toGains

/-- A request that is leased on a resource is out on it, unless a breaker turns it away; and a permit
that is out comes back. -/
theorem Entered.leased (h : run.Entered entry next) (r : Resource) :
    liveOn r run.live + entry.toList.countP (GateEntry.isLeasedOn r) =
      liveOn r next.live + entry.toList.countP (GateEntry.isFinishedOn r) +
        entry.toList.countP (GateEntry.isTurnedAwayOn r) := by
  cases h with
  | nothing stats clock live => simp [live]
  | asked answered =>
    -- a lease becomes a live permit, or it is one that a breaker has turned away
    simp only [Option.toList_some, List.countP_singleton, GateEntry.isLeasedOn,
      GateEntry.isFinishedOn, GateEntry.isTurnedAwayOn]
    cases answered with
    | overLimit limited => simp [limited, LimitDecision.leased?, Admission.permit?]
    | unguarded limited verdict =>
      simp [limited, LimitDecision.leased?, Admission.permit?, liveOn_append, Permit.resource?,
        Permit.tracked?]
    | guarded limited verdict =>
      simp [limited, LimitDecision.leased?, Admission.permit?, liveOn_append, Permit.resource?,
        Permit.tracked?]
    | broken limited verdict => simp [limited, LimitDecision.leased?, Admission.permit?]
  | @returned position t out success =>
    rw [liveOn_eraseIdx out]
    simp [GateEntry.isLeasedOn, GateEntry.isFinishedOn, GateEntry.isTurnedAwayOn, Permit.resource?,
      Permit.tracked?, List.countP_cons]

/-! The run. -/

/-- **A run counts what its journal says**, at the times of its entries. -/
theorem gains_after (events : List GateEvent) : ∀ run : GateRun,
    run.gate.clock.failing = false → (∀ event ∈ events, event.isSteady = true) →
      run.gate.stats.Gains ((run.journal events).map GateEntry.time) (run.after events).gate.stats
        ((run.journal events).flatMap GateEntry.gains) := by
  induction events with
  | nil => exact fun run _ _ => .refl [] run.gate.stats
  | cons event events ih =>
    intro run hf hsteady
    have hentered := run.entered_step hf (hsteady event List.mem_cons_self)
    have hrest := ih (run.step event) (hentered.working hf) fun later hlater =>
      hsteady later (List.mem_cons_of_mem event hlater)
    rw [journal, List.map_append, List.flatMap_append]
    exact (hentered.gains.mono (List.subset_append_left _ _)).trans
      (hrest.mono (List.subset_append_right _ _))

theorem leased_after (r : Resource) (events : List GateEvent) : ∀ run : GateRun,
    run.gate.clock.failing = false → (∀ event ∈ events, event.isSteady = true) →
      liveOn r run.live + (run.journal events).countP (GateEntry.isLeasedOn r) =
        liveOn r (run.after events).live + (run.journal events).countP (GateEntry.isFinishedOn r) +
          (run.journal events).countP (GateEntry.isTurnedAwayOn r) := by
  induction events with
  | nil => exact fun _ _ _ => rfl
  | cons event events ih =>
    intro run hf hsteady
    have hentered := run.entered_step hf (hsteady event List.mem_cons_self)
    have hrest := ih (run.step event) (hentered.working hf) fun later hlater =>
      hsteady later (List.mem_cons_of_mem event hlater)
    have hfirst := hentered.leased r
    rw [journal, List.countP_append, List.countP_append, List.countP_append]
    have hafter : run.after (event :: events) = (run.step event).after events := rfl
    rw [hafter]
    omega

end GateRun

/-! ## The counters and the journal -/

namespace GateEntry

/-- The entries that a counter of a resource is about. -/
def isCountedAs (r : Resource) : Outcome → GateEntry → Bool
  | .started => isLeasedOn r
  | .completed => isCompletedOn r
  | .error => isFailedOn r
  | .blockedByLimiter => isLimitedOn r
  | .blockedByBreaker => isBrokenOn r

theorem count_outcomeGains (r r' : Resource) (failed : Bool) (o : Outcome) :
    (outcomeGains r' failed).count (r, o) =
      if r' = r ∧ (o = .completed ∨ o = .error ∧ failed = true) then 1 else 0 := by
  cases failed <;> cases o <;> simp [outcomeGains, List.count_cons]

theorem count_gains_asked (time : Nat) (leased : Option Resource) (answer : Admission)
    (r : Resource) (o : Outcome) :
    (gains (.asked time leased answer)).count (r, o) =
      if isCountedAs r o (.asked time leased answer) then 1 else 0 := by
  -- the start and the denial are counted apart; no entry gains the same twice
  have hleased : (leased.map fun r' => (r', Outcome.started)).toList.count (r, o) =
      if leased = some r ∧ o = .started then 1 else 0 := by
    cases leased <;> cases o <;> simp [List.count_cons]
  have hreason : (answer.reason?.map Blocked.gain).toList.count (r, o) =
      if isLimitedOn r (.asked time leased answer) ∧ o = .blockedByLimiter ∨
        isBrokenOn r (.asked time leased answer) ∧ o = .blockedByBreaker then 1 else 0 := by
    rw [isLimitedOn, isBrokenOn]
    cases answer.reason? with
    | none => simp
    | some reason => cases reason <;> cases o <;> simp [Blocked.gain, List.count_cons]
  have hcounted : (gains (.asked time leased answer)).count (r, o) =
      if leased = some r ∧ o = .started ∨
        isLimitedOn r (.asked time leased answer) ∧ o = .blockedByLimiter ∨
        isBrokenOn r (.asked time leased answer) ∧ o = .blockedByBreaker then 1 else 0 := by
    rw [gains, List.count_append, hleased, hreason]
    cases o <;> simp
  rw [hcounted]
  refine if_congr ?_ rfl rfl
  cases o <;> simp [isCountedAs, isLeasedOn, isCompletedOn, isFailedOn]

theorem count_gains_returned (time : Nat) (t : Tracked) (success : Option Bool) (r : Resource)
    (o : Outcome) :
    (gains (.returned time t success)).count (r, o) =
      if isCountedAs r o (.returned time t success) then 1 else 0 := by
  obtain ⟨lease, breaker, probe, admittedAt⟩ := t
  have hcounted : (gains (.returned time { lease, breaker, probe, admittedAt } success)).count (r, o) =
      if Tracked.countsFor { lease, breaker, probe, admittedAt } r ∧
        (o = .completed ∨ o = .error ∧ success = some false) then 1 else 0 := by
    simp only [gains, List.count_append, count_outcomeGains, Tracked.countsFor]
    cases breaker with
    | none => simp
    | some h =>
      -- one resource, or two of which at most one is the resource in question
      by_cases hsame : h.key = lease.resource
      · simp [hsame]
      · by_cases hr : lease.resource = r
        · subst hr
          simp [hsame, count_outcomeGains]
        · simp [hsame, hr, count_outcomeGains]
  rw [hcounted]
  refine if_congr ?_ rfl rfl
  cases o <;>
    simp [isCountedAs, isLeasedOn, isCompletedOn, isFailedOn, isLimitedOn, isBrokenOn, and_comm]

theorem count_gains (e : GateEntry) (r : Resource) (o : Outcome) :
    e.gains.count (r, o) = if e.isCountedAs r o then 1 else 0 := by
  cases e with
  | asked time leased answer => exact count_gains_asked time leased answer r o
  | returned time t success => exact count_gains_returned time t success r o

/-- Whatever the outcome, an entry is counted once or not at all. -/
theorem count_flatMap_gains (r : Resource) (o : Outcome) (journal : List GateEntry) :
    (journal.flatMap gains).count (r, o) = journal.countP (isCountedAs r o) := by
  induction journal with
  | nil => rfl
  | cons e journal ih =>
    rw [List.flatMap_cons, List.count_append, List.countP_cons, ih, count_gains, Nat.add_comm]

end GateEntry

namespace GateRun

/-- **Traffic is conserved.** In every run without evictions in which the clock can be read, and all
slots that are written lie within the retention span of each other, the counters of a resource add
up to what the journal says: a request that has started is in flight, has finished, or was turned
away by a breaker, and each of the other counters is the number of its entries. Times may come in
any order. -/
theorem traffic_is_conserved (book : RuleBook) (slotMs retained : Nat) (clock : Clock)
    (events : List GateEvent) (r : Resource) :
    let first := start book slotMs retained clock
    let run := first.after events
    let journal := first.journal events
    let stats := run.gate.stats
    let g := stats.grid
    clock.failing = false → (∀ event ∈ events, event.isSteady = true) →
      (∀ e ∈ journal, ∀ e' ∈ journal,
        g.floor e.time < g.floor e'.time + min (g.retained * g.slotMs) Word.greatest) →
      stats.total r .started =
          stats.inFlight r + journal.countP (GateEntry.isFinishedOn r) +
            journal.countP (GateEntry.isTurnedAwayOn r) ∧
        stats.total r .completed = journal.countP (GateEntry.isCompletedOn r) ∧
        stats.total r .error = journal.countP (GateEntry.isFailedOn r) ∧
        stats.total r .blockedByLimiter = journal.countP (GateEntry.isLimitedOn r) ∧
        stats.total r .blockedByBreaker = journal.countP (GateEntry.isBrokenOn r) := by
  intro first run journal stats g hf hsteady hspan
  have hgains : (StatStore.new slotMs retained).Gains (journal.map GateEntry.time) stats
      (journal.flatMap GateEntry.gains) := gains_after events first hf hsteady
  have htotal : ∀ o, stats.total r o = journal.countP (GateEntry.isCountedAs r o) := by
    intro o
    rw [← GateEntry.count_flatMap_gains]
    refine hgains.total_eq (fun t ht t' ht' => ?_) r o
    obtain ⟨e, he, rfl⟩ := List.mem_map.mp ht
    obtain ⟨e', he', rfl⟩ := List.mem_map.mp ht'
    exact hspan e he e' he'
  -- every lease was turned away, or finished, or is out
  have hleased : 0 + journal.countP (GateEntry.isLeasedOn r) =
      liveOn r run.live + journal.countP (GateEntry.isFinishedOn r) +
        journal.countP (GateEntry.isTurnedAwayOn r) := leased_after r events first hf hsteady
  have hunits : stats.inFlight r = liveOn r run.live :=
    (accounted_after book slotMs retained clock events).inFlight r
  refine ⟨?_, htotal .completed, htotal .error, htotal .blockedByLimiter, htotal .blockedByBreaker⟩
  rw [htotal .started, hunits, ← hleased]
  exact (Nat.zero_add _).symm

/-- One request for a service may be in flight, and one error opens its breaker. The second of three
requests finds the first in flight; the first fails, in an earlier slot than it came in, and the
third opens the breaker. -/
theorem traffic_is_conserved_blocked :
    let shop := Resource.service "shop"
    let limit : LimitRule := { resource := shop, concurrency := some 1 }
    let degrade : DegradeRule :=
      { resource := shop, strategy := .totalErrors 1, resume := .immediate, breakMs := 1000 }
    let book := RuleBook.ofChanges [.rateLimit (.upsert limit), .degrade (.upsert degrade)]
    let request : GateEvent := .enter { service := "shop" } 0.5
    let events := [.setClock 1500, request, request, .setClock 300, .finish 0 (some false),
      .setClock 1500, request]
    let run := (start book 1000 10 { now := 0 }).after events
    run.gate.stats.inFlight shop = 0 ∧ run.gate.stats.total shop .started = 2 ∧
      run.gate.stats.total shop .completed = 1 ∧ run.gate.stats.total shop .error = 1 ∧
      run.gate.stats.total shop .blockedByLimiter = 1 ∧
      run.gate.stats.total shop .blockedByBreaker = 1 := by
  intro shop limit degrade book request events run
  let journal := (start book 1000 10 { now := 0 }).journal events
  have hcounts :
      run.gate.stats.inFlight shop = 0 ∧
      journal.countP (GateEntry.isFinishedOn shop) = 1 ∧
      journal.countP (GateEntry.isTurnedAwayOn shop) = 1 ∧
      journal.countP (GateEntry.isCompletedOn shop) = 1 ∧
      journal.countP (GateEntry.isFailedOn shop) = 1 ∧
      journal.countP (GateEntry.isLimitedOn shop) = 1 ∧
      journal.countP (GateEntry.isBrokenOn shop) = 1 := by decide +kernel
  have hconserved := traffic_is_conserved book 1000 10 { now := 0 } events shop rfl
    (by decide +kernel) (by decide +kernel)
  -- spelled out, the runs are compared by what is written and not by what they come to
  simp only [run, journal, events, request] at hcounts hconserved ⊢
  obtain ⟨hflight, hfinished, hturned, hcompleted, hfailed, hlimited, hbroken⟩ := hcounts
  rw [hflight, hfinished, hturned, hcompleted, hfailed, hlimited, hbroken] at hconserved
  exact ⟨hflight, hconserved⟩

/-- The greatest word is where the retention span stops. Here the measures say two more than that,
so the two slots of a request lie within them, and yet the older one is dropped. -/
theorem traffic_is_lost_at_greatest_span :
    let first := start .empty 3 6148914691236517206 { now := 0 }
    let events :=
      [.enter { service := "s" } 0.5, .setClock 18446744073709551615, .finish 0 (some true)]
    let run := first.after events
    let journal := first.journal events
    let g := run.gate.stats.grid
    (∀ event ∈ events, event.isSteady = true) ∧
      (∀ e ∈ journal, ∀ e' ∈ journal,
        g.floor e.time < g.floor e'.time + g.retained * g.slotMs) ∧
      run.gate.stats.total .global .started ≠
        run.gate.stats.inFlight .global + journal.countP (GateEntry.isFinishedOn .global) +
          journal.countP (GateEntry.isTurnedAwayOn .global) := by
  decide +kernel

end GateRun
end Floodgate
