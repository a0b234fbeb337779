import Floodgate.Admission.Gate
import Mathlib.Data.List.Perm.Basic

/-!
# Runs of a gate

A gate decides requests, takes permits back, and is shown rule documents; its statistics are swept
of idle resources, and its clock is moved. `GateEvent` lists what can happen, in any order and with
any arguments. A `GateRun` is a gate together with the permits that are out: a permit enters the
list when a request is let through and leaves it when it is given back, so none is given back twice.

The middle of the file takes the two functions of a gate apart. `Gate.Answer` is a request's way
through the gate, one constructor for each place where it can end, with the decisions that led
there. `Gate.finishAt_eq` does the same for a permit that comes back: counting first, and then
perhaps word to a breaker about its probe.
-/

set_option autoImplicit false

namespace Floodgate

/-! ## Events -/

/-- One thing that happens at a gate. -/
inductive GateEvent where
  /-- A request arrives. -/
  | enter (identity : Identity) (draw : Float)
  /-- The permit at a position of the list comes back, with the outcome of its request or without. -/
  | finish (position : Nat) (success : Option Bool)
  | rule (raw : RawRule)
  | evict (now idleMs : Nat)
  | setClock (now : Nat)
  | advanceClock (ms : Nat)
  /-- The next reading of the clock is made to fail. -/
  | failClock

/-- A gate, and the permits that are out. They are in the order in which they were given, and an
event names one by its position. -/
structure GateRun where
  gate : Gate
  live : List Permit := []

/-- How many live permits are counted under a resource. One that was given while the clock could not
be read is counted under none. -/
def liveOn (r : Resource) (live : List Permit) : Nat :=
  live.countP fun p => p.resource? = some r

/-- The permit of a request that was let through. -/
def Admission.permit? : Admission → Option Permit
  | permit p => some p
  | deny _ => none

/-- Why a request was turned away. -/
def Admission.reason? : Admission → Option Blocked
  | permit _ => none
  | deny d => some d.reason

namespace GateRun

/-- A gate that has been given rules and an empty store of statistics, before any request. -/
def start (book : RuleBook) (slotMs retained : Nat) (clock : Clock) : GateRun :=
  { gate := Gate.new book (StatStore.new slotMs retained) clock }

/-- The run after one event. A position without a permit means no event. -/
def step (run : GateRun) : GateEvent → GateRun
  | .enter identity draw =>
    let (answer, gate) := run.gate.enter identity draw
    { gate, live := run.live ++ answer.permit?.toList }
  | .finish position success =>
    match run.live[position]? with
    | some p => { gate := run.gate.finish p success, live := run.live.eraseIdx position }
    | none => run
  | .rule raw => { run with gate := (run.gate.applyRule raw).2 }
  | .evict now idleMs =>
    { run with gate := { run.gate with stats := run.gate.stats.evictIdle now idleMs } }
  | .setClock now => { run with gate := { run.gate with clock := run.gate.clock.set now } }
  | .advanceClock ms => { run with gate := { run.gate with clock := run.gate.clock.advance ms } }
  | .failClock => { run with gate := { run.gate with clock := run.gate.clock.failNext } }

section

variable {run : GateRun} {position : Nat}

theorem step_finish_of_none (hp : run.live[position]? = none) (success : Option Bool) :
    run.step (.finish position success) = run := by
  unfold step
  dsimp only
  rw [hp]

theorem step_finish_of_some {p : Permit} (hp : run.live[position]? = some p)
    (success : Option Bool) :
    run.step (.finish position success) =
      { gate := run.gate.finish p success, live := run.live.eraseIdx position } := by
  unfold step
  dsimp only
  rw [hp]

end

/-- The run after events, one after another. -/
def after (run : GateRun) (events : List GateEvent) : GateRun := events.foldl step run

/-- What every event keeps, every run keeps. Each invariant of gates is carried through a run by
this lemma, and only what a single event does to it remains to be shown. -/
theorem after_of_step {I : GateRun → Prop} (hstep : ∀ run event, I run → I (run.step event))
    (events : List GateEvent) : ∀ {run : GateRun}, I run → I (run.after events) := by
  induction events with
  | nil => exact id
  | cons event events ih => exact fun hrun => ih (hstep _ event hrun)

end GateRun

/-! ## Counting live permits -/

theorem liveOn_append (r : Resource) (live : List Permit) (p : Permit) :
    liveOn r (live ++ [p]) = liveOn r live + if p.resource? = some r then 1 else 0 := by
  simp [liveOn, List.countP_append, List.countP_cons]

/-- A permit that is given back was counted once, whatever permits are counted. The permits after it
move up by one position, and a count does not notice. -/
theorem countP_eraseIdx {live : List Permit} {n : Nat} {p : Permit} (hp : live[n]? = some p)
    (f : Permit → Bool) :
    live.countP f = (live.eraseIdx n).countP f + if f p = true then 1 else 0 := by
  obtain ⟨hn, rfl⟩ := List.getElem?_eq_some_iff.mp hp
  rw [← (List.getElem_cons_eraseIdx_perm hn).countP_eq, List.countP_cons]

theorem liveOn_eraseIdx {live : List Permit} {n : Nat} {p : Permit} (hp : live[n]? = some p)
    (r : Resource) :
    liveOn r live = liveOn r (live.eraseIdx n) + if p.resource? = some r then 1 else 0 := by
  simpa [liveOn] using countP_eraseIdx hp fun p => p.resource? = some r

theorem liveOn_pos {live : List Permit} {p : Permit} {r : Resource} (hp : p ∈ live)
    (hr : p.resource? = some r) : 0 < liveOn r live :=
  List.countP_pos_iff.mpr ⟨p, hp, by simpa using hr⟩

/-- The breaker that waits for the outcome of the request, if the request is its probe. A permit
without a breaker is nobody's probe, whatever its mark says. -/
def Tracked.probed? (t : Tracked) : Option (Handle Resource) := if t.probe then t.breaker else none

theorem Tracked.breaker_of_probed? {t : Tracked} {h : Handle Resource} (ht : t.probed? = some h) :
    t.breaker = some h := by
  unfold probed? at ht
  split at ht
  · exact ht
  · cases ht

/-- The resource of the breaker that a handle names. -/
def Registry.resourceOf (g : Registry) (h : Handle Resource) : Resource :=
  ((g.held? h).map Breaker.resource).getD h.key

namespace Gate

/-! ## A request's way through the gate -/

/-- What becomes of a request at a time: the answer, and the gate as it is then. -/
inductive Answer (g : Gate) (identity : Identity) (now : Nat) (draw : Float) :
    Admission → Gate → Prop where
  | overLimit {resource : Resource} {axis : LimitAxis} {rule : LimitRule} {stats : StatStore}
      (limited : Limiter.permit g.book g.stats identity.candidates now =
        (.denied resource axis rule, stats)) :
      Answer g identity now draw (.deny (g.limitDenial resource axis rule)) { g with stats }
  | unguarded {lease : Lease} {leased stats : StatStore} {breakers : Registry}
      (limited : Limiter.permit g.book g.stats identity.candidates now = (.allowed lease, leased))
      (verdict : g.breakers.permit g.book leased identity.candidates now draw =
        (.unrestricted, breakers, stats)) :
      Answer g identity now draw
        (.permit (.tracked { lease, breaker := none, probe := false, admittedAt := now }))
        { g with breakers, stats }
  | guarded {lease : Lease} {leased stats : StatStore} {breakers : Registry}
      {h : Handle Resource} {probe : Bool}
      (limited : Limiter.permit g.book g.stats identity.candidates now = (.allowed lease, leased))
      (verdict : g.breakers.permit g.book leased identity.candidates now draw =
        (.permit h probe, breakers, stats)) :
      Answer g identity now draw
        (.permit (.tracked { lease, breaker := some h, probe, admittedAt := now }))
        { g with breakers, stats }
  /-- A breaker turns the request away, and the lease goes back. -/
  | broken {lease : Lease} {leased stats : StatStore} {breakers : Registry}
      {h : Handle Resource} {state : BreakerState}
      (limited : Limiter.permit g.book g.stats identity.candidates now = (.allowed lease, leased))
      (verdict : g.breakers.permit g.book leased identity.candidates now draw =
        (.reject h state, breakers, stats)) :
      Answer g identity now draw
        (.deny ({ g with breakers, stats }.breakerDenial h state))
        { g with breakers, stats := Limiter.release stats lease }

/-- The reason names the resource of the breaker, and the state it was in when it decided. -/
theorem breakerDenial_reason (g : Gate) (h : Handle Resource) (state : BreakerState) :
    (g.breakerDenial h state).reason = .circuitBreaker (g.breakers.resourceOf h) state := by
  unfold breakerDenial Registry.resourceOf
  cases g.breakers.held? h <;> rfl

/-- **Every request goes one of four ways through a gate.** The constructors of `Answer` carry the
two decisions, so that a proof about requests is a proof by cases on them. -/
theorem answer_enterAt (g : Gate) (identity : Identity) (now : Nat) (draw : Float) :
    Answer g identity now draw (g.enterAt identity now draw).1 (g.enterAt identity now draw).2 := by
  rcases hl : Limiter.permit g.book g.stats identity.candidates now with ⟨decision, leased⟩
  cases decision with
  | denied resource axis rule =>
    rw [enterAt, hl]
    exact .overLimit hl
  | allowed lease =>
    rcases hv : g.breakers.permit g.book leased identity.candidates now draw with
      ⟨verdict, breakers, stats⟩
    rw [enterAt, hl]
    dsimp only
    rw [enterLeased, hv]
    cases verdict with
    | unrestricted => exact .unguarded hl hv
    | permit h probe => exact .guarded hl hv
    | reject h state => exact .broken hl hv

/-- An answer changes neither the rules nor the clock, and the breakers only by asking them. A
request that the limiter turns away does not even do that. -/
theorem Answer.breakers_cases {g g' : Gate} {identity : Identity} {now : Nat} {draw : Float}
    {a : Admission} (ha : Answer g identity now draw a g') :
    g'.book = g.book ∧ g'.clock = g.clock ∧
      (g'.breakers = g.breakers ∨ ∃ leased,
        g'.breakers = (g.breakers.permit g.book leased identity.candidates now draw).2.1) := by
  cases ha with
  | overLimit limited => exact ⟨rfl, rfl, Or.inl rfl⟩
  | unguarded limited verdict => exact ⟨rfl, rfl, Or.inr ⟨_, by rw [verdict]⟩⟩
  | guarded limited verdict => exact ⟨rfl, rfl, Or.inr ⟨_, by rw [verdict]⟩⟩
  | broken limited verdict => exact ⟨rfl, rfl, Or.inr ⟨_, by rw [verdict]⟩⟩

/-- A request is denied by a limit exactly if the limiter says so. A breaker denies for a reason of
its own. -/
theorem Answer.reason?_eq_rateLimit_iff {g g' : Gate} {identity : Identity} {now : Nat}
    {draw : Float} {a : Admission} (ha : Answer g identity now draw a g') (r : Resource)
    (axis : LimitAxis) :
    a.reason? = some (.rateLimit r axis) ↔
      ∃ rule, (Limiter.permit g.book g.stats identity.candidates now).1 = .denied r axis rule := by
  cases ha with
  | overLimit limited => simp [limited, Admission.reason?, limitDenial]
  | unguarded limited verdict => simp [limited, Admission.reason?]
  | guarded limited verdict => simp [limited, Admission.reason?]
  | @broken lease leased stats breakers h state limited verdict =>
    simp [limited, Admission.reason?, breakerDenial_reason]

/-- A request that is let through has been given a lease, and its permit is counted under the
resource of the lease. -/
theorem Answer.permit?_eq_some {g g' : Gate} {identity : Identity} {now : Nat} {draw : Float}
    {a : Admission} (ha : Answer g identity now draw a g') {p : Permit} (hp : a.permit? = some p) :
    ∃ lease, (Limiter.permit g.book g.stats identity.candidates now).1 = .allowed lease ∧
      p.resource? = some lease.resource := by
  cases ha with
  | overLimit limited => cases hp
  | unguarded limited verdict =>
    cases hp
    exact ⟨_, by rw [limited], rfl⟩
  | guarded limited verdict =>
    cases hp
    exact ⟨_, by rw [limited], rfl⟩
  | broken limited verdict => cases hp

/-- **Where the clock cannot be read, a request is let through and left uncounted.** The failure is
used up by it. -/
theorem enter_of_failing {g : Gate} (hf : g.clock.failing = true) (identity : Identity)
    (draw : Float) :
    g.enter identity draw =
      (.permit .untracked, { g with clock := { g.clock with failing := false } }) := by
  simp [enter, Clock.read, hf]

/-- With a clock that works, a request is decided at the present time. -/
theorem enter_of_working {g : Gate} (hf : g.clock.failing = false) (identity : Identity)
    (draw : Float) : g.enter identity draw = g.enterAt identity g.clock.now draw := by
  simp [enter, Clock.read, hf]

/-! ## A permit that comes back -/

/-- When the outcome of a request is counted. If the clock cannot be read, that is the time when the
request was admitted, and it took no time. -/
def finishTime (g : Gate) (t : Tracked) : Nat :=
  match g.clock.read.1 with
  | .ok now => now
  | .error _ => t.admittedAt

/-- The statistics with the outcome of a request counted, and its unit given back. The breaker
counts under a resource of its own, and what is counted there once is not counted there again. -/
def counted (g : Gate) (t : Tracked) (success : Option Bool) (now : Nat) : StatStore :=
  let failed := decide (success = some false)
  let latency := now - t.admittedAt
  let stats := recordOutcome (Limiter.release g.stats t.lease) t.lease.resource failed latency now
  match t.breaker with
  | none => stats
  | some h =>
    if h.key = t.lease.resource then stats else recordOutcome stats h.key failed latency now

/-- The outcome is counted, and the breaker that waits for it as its probe is told. A request that
was given up without an outcome is to the breaker one that failed. -/
theorem finishAt_eq (g : Gate) (t : Tracked) (success : Option Bool) (now : Nat) :
    g.finishAt t success now =
      match t.probed? with
      | none => { g with stats := g.counted t success now }
      | some h =>
        let told := g.breakers.onProbeOutcome h (success.getD false) (g.counted t success now) now
        { g with breakers := told.1, stats := told.2 } := by
  obtain ⟨lease, breaker, probe, admittedAt⟩ := t
  cases breaker with
  | none => cases probe <;> rfl
  | some h => cases probe <;> rfl

theorem finish_tracked (g : Gate) (t : Tracked) (success : Option Bool) :
    g.finish (.tracked t) success =
      { g with clock := g.clock.read.2 }.finishAt t success (g.finishTime t) := rfl

theorem finish_of_working {g : Gate} (hf : g.clock.failing = false) (t : Tracked)
    (success : Option Bool) : g.finish (.tracked t) success = g.finishAt t success g.clock.now := by
  have hread : g.clock.read = (.ok g.clock.now, g.clock) := by
    rw [Clock.read, if_neg (by rw [hf]; nofun)]
  rw [finish_tracked, finishTime, hread]

theorem clock_finishAt (g : Gate) (t : Tracked) (success : Option Bool) (now : Nat) :
    (g.finishAt t success now).clock = g.clock := by
  rw [finishAt_eq]
  cases t.probed? <;> rfl

/-! ## Requests leave the rules alone -/

theorem book_enter (g : Gate) (identity : Identity) (draw : Float) :
    (g.enter identity draw).2.book = g.book := by
  cases hf : g.clock.failing with
  | true => rw [enter_of_failing hf]
  | false =>
    rw [enter_of_working hf]
    exact (g.answer_enterAt identity g.clock.now draw).breakers_cases.1

theorem book_finish (g : Gate) (p : Permit) (success : Option Bool) :
    (g.finish p success).book = g.book := by
  cases p with
  | untracked => rfl
  | tracked t =>
    rw [finish_tracked, finishAt_eq]
    cases t.probed? <;> rfl

end Gate
end Floodgate
