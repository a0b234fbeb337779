import Floodgate.Proofs.Admission.Conservation
import Floodgate.Proofs.Admission.Footprint
import Floodgate.Proofs.Admission.Precedence
import Floodgate.Proofs.Admission.Rules
import Floodgate.Proofs.Stats.Present

/-!
# What is left of a request that is turned away

A request is turned away at one of two depths. The limiter may have taken a unit of concurrency
before it finds no room in the budget. A breaker decides when the request holds its lease and has
been counted as started; by then the breaker may have been made, and may have changed its state.
Either way no unit stays taken. What is counted is in the slots of the time of the request: a denial
under the resource of the limit (`Gate.Answer.of_rateLimit`), or a start there and a rejection under
the resource of the breaker (`Gate.Answer.of_circuitBreaker`). A reading of the clock that fails
turns nobody away, and nothing at all is counted.

`GateRun.denials_are_confined` says so of every gate that a run leads to. For that the slots must
lie where they belong, which every run keeps (`GateRun.tidy_after`), and the breakers must stand at
their own resources, which they do as they follow the rules.
-/

set_option autoImplicit false

namespace Floodgate

/-- Whatever the limiter decides, it decides about the resource that the request is bound to. -/
theorem Limiter.bound_eq_limited (book : RuleBook) (stats : StatStore) (candidates : List Resource)
    (now : Nat) : (permit book stats candidates now).1.bound = limited book candidates := by
  cases hrule : resolve book candidates with
  | none =>
    rw [permit, limited, hrule]
    rfl
  | some rule =>
    rw [bound_permit hrule, limited, hrule]
    rfl

/-! ## A breaker that turns a request away -/

/-- What turns a request away is not closed, or opens by that. So no denial ever shows a breaker as
closed. -/
theorem Phase.ne_closed_of_reject {p : Phase} {rule : DegradeRule} {w : Window} {now : Nat}
    {draw : Float} (h : (p.evaluate rule w now draw).decision = .reject) :
    (((p.evaluate rule w now draw).next.map fun next => unpack next.pack).getD p).state ≠
      .closed := by
  obtain ⟨s, since⟩ := p
  cases s with
  | closed =>
    cases ht : rule.trips w with
    | true => simp [evaluate, ht, enter]
    | false => simp [evaluate, ht, stay] at h
  | «open» =>
    by_cases ht : now - since ≤ rule.breakMs
    · simp [evaluate, ht, stay]
    · cases hr : rule.resume with
      | immediate => simp [evaluate, ht, hr, enter] at h
      | detective => simp [evaluate, ht, hr, enter]
      | gradual windowMs => simp [evaluate, ht, hr, enter]
  | resumeDetectively =>
    cases hr : rule.resume with
    | detective => simp [evaluate, hr, stay]
    | immediate => simp [evaluate, hr, enter] at h
    | gradual windowMs => simp [evaluate, hr, enter] at h
  | resumeGradually =>
    cases hr : rule.resume with
    | gradual windowMs =>
      by_cases ht : now - since < windowMs
      · simp [evaluate, hr, ht, stay]
      · simp [evaluate, hr, ht, enter] at h
    | immediate => simp [evaluate, hr, enter] at h
    | detective => simp [evaluate, hr, enter] at h

theorem Breaker.ne_closed_of_reject {b : Breaker} {stats : StatStore} {now : Nat} {draw : Float}
    (h : (b.permit stats now draw).1 = .reject) :
    (b.permit stats now draw).2.1.phase.state ≠ .closed := by
  rw [permit_decision] at h
  rw [permit_phase]
  exact Phase.ne_closed_of_reject h

/-- The breaker that turns a request away stands at the resource that the request is bound to. The
state that it reports is the one that it is left in. -/
theorem Registry.Follows.rejected {g g' : Registry} {book : RuleBook} {stats stats' : StatStore}
    {i : Identity} {now : Nat} {draw : Float} {h : Handle Resource} {state : BreakerState}
    (hg : g.Follows book) (hb : book.Consistent)
    (hv : g.permit book stats i.candidates now draw = (.reject h state, g', stats')) :
    guarded? book i.candidates = some (g'.resourceOf h) ∧ state ≠ .closed ∧
      ∃ b, g'.get? (g'.resourceOf h) = some b ∧ b.phase.state = state := by
  rcases g.permit_cases book stats i.candidates now draw with
    ⟨-, hpermit⟩ | ⟨e, hd, b, he, -, hhandle, hheld, hview, hpermit⟩
  · rw [hpermit] at hv
    cases hv
  · have hbound : (b.permit stats now draw).2.1.resource = e.rule.resource.bind i.candidates :=
      (b.permit_rule stats now draw).1.trans ((hg.lookup hb i).ruled hview).own
    -- what is known of the answer is stated before the answer is taken apart
    have hclosed := @Breaker.ne_closed_of_reject b stats now draw
    rw [hpermit] at hv
    unfold Registry.permitBy at hv
    generalize b.permit stats now draw = asked at hv hbound hclosed
    obtain ⟨decision, b', counted⟩ := asked
    cases decision with
    | permit => cases hv
    | probe => cases hv
    | reject =>
      simp only [Prod.mk.injEq, Verdict.reject.injEq] at hv
      obtain ⟨⟨rfl, rfl⟩, rfl, -⟩ := hv
      rw [resourceOf_modify hheld, hbound, guarded?, he]
      refine ⟨rfl, hclosed rfl, b', ?_, rfl⟩
      rw [Registry.get?, Roster.current?_modify_of_handle? hhandle, if_pos rfl]
      exact congrArg (Option.map fun _ => b') hview

/-! ## Answers -/

namespace Gate.Answer

variable {g g' : Gate} {identity : Identity} {now : Nat} {draw : Float} {a : Admission}
  {r : Resource}

/-- **A denial by the limiter** leaves the breakers alone. It is counted under the resource that the
request is bound to. -/
theorem of_rateLimit (ha : Answer g identity now draw a g') {axis : LimitAxis}
    (hr : a.reason? = some (.rateLimit r axis)) :
    r = Limiter.limited g.book identity.candidates ∧ g'.breakers = g.breakers ∧
      StatStore.Booked (·.CountsAt now) g.stats g'.stats [(r, .blockedByLimiter)] := by
  have hbooked := Limiter.booked_permit g.book g.stats identity.candidates now
  cases ha with
  | unguarded => cases hr
  | guarded => cases hr
  | broken => rw [Admission.reason?, breakerDenial_reason] at hr; cases hr
  | overLimit denied =>
    cases hr
    have hbound := Limiter.bound_eq_limited g.book g.stats identity.candidates now
    rw [denied] at hbooked hbound
    exact ⟨hbound, rfl, hbooked⟩

/-- **A rejection by a breaker** is counted under the resource of the breaker, beside the start under
that of the lease. -/
theorem of_circuitBreaker (ha : Answer g identity now draw a g') (hg : g.Ordered)
    {state : BreakerState} (hr : a.reason? = some (.circuitBreaker r state)) :
    Registry.guarded? g.book identity.candidates = some r ∧ state ≠ .closed ∧
      (∃ b, g'.breakers.get? r = some b ∧ b.phase.state = state) ∧
      StatStore.Booked (·.DecidesAt now) g.stats g'.stats
        [(Limiter.limited g.book identity.candidates, .started), (r, .blockedByBreaker)] := by
  have hbooked := ha.booked
  cases ha with
  | unguarded => cases hr
  | guarded => cases hr
  | overLimit denied => cases hr
  | @broken lease leased stats breakers h state limited verdict =>
    have hbound := Limiter.bound_eq_limited g.book g.stats identity.candidates now
    rw [limited] at hbooked hbound
    obtain ⟨hguarded, hclosed, hleft⟩ := hg.breakers.rejected hg.book verdict
    simp only [GateEntry.gains, Admission.reason?, breakerDenial_reason] at hbooked hr
    cases hr
    exact ⟨hguarded, hclosed, hleft, hbound ▸ hbooked⟩

end Gate.Answer

/-! ## Runs -/

namespace GateRun

theorem tidy_step {run : GateRun} (h : run.gate.stats.Tidy) (event : GateEvent) :
    (run.step event).gate.stats.Tidy := by
  cases event with
  | enter identity draw =>
    show (run.gate.enter identity draw).2.stats.Tidy
    cases hf : run.gate.clock.failing with
    | true =>
      rw [Gate.enter_of_failing hf]
      exact h
    | false =>
      rw [Gate.enter_of_working hf]
      exact (run.gate.answer_enterAt identity run.gate.clock.now draw).booked.tidy h
  | finish position success =>
    cases hp : run.live[position]? with
    | none =>
      rw [step_finish_of_none hp]
      exact h
    | some p =>
      rw [step_finish_of_some hp]
      cases p with
      | untracked => exact h
      | tracked t =>
        have hread : ({ run.gate with clock := run.gate.clock.read.2 } : Gate).stats.Tidy := h
        exact (Gate.booked_finishAt _ t success (run.gate.finishTime t)).tidy hread
  | rule raw => exact h
  | evict now idleMs => exact h.event (.evictIdle now idleMs)
  | setClock now => exact h
  | advanceClock ms => exact h
  | failClock => exact h

theorem tidy_after (book : RuleBook) (slotMs retained : Nat) (clock : Clock)
    (events : List GateEvent) :
    ((start book slotMs retained clock).after events).gate.stats.Tidy :=
  after_of_step (I := fun run => run.gate.stats.Tidy) (fun _ event h => tidy_step h event) events
    (StatStore.tidy_new slotMs retained)

/-- **What a request leaves behind that is turned away**, or that comes when the clock cannot be
read, at every gate that a run leads to. Without a reading of the clock the permit is untracked:
nothing is counted, and nothing changes when it comes back. A denial by the limiter leaves the
breakers alone, which note nothing in the slots either, and all requests in flight; it is counted
once, under the resource that the request is bound to. A rejection by a breaker leaves all requests
in flight as well; it is counted under the resource of the breaker, beside the start under that of
the lease. The state that it reports is the one that the breaker is left in, and is never closed.
Whatever is counted is in the slots of the time of the request, and other slots change only by
expiring. -/
theorem denials_are_confined (changes : List RuleChange) (slotMs retained : Nat) (clock : Clock)
    (events : List GateEvent) (identity : Identity) (draw : Float) :
    let gate := ((start (RuleBook.ofChanges changes) slotMs retained clock).after events).gate
    let stats := gate.stats
    let now := gate.clock.now
    let present := stats.grid.floor now
    let leased := Limiter.limited gate.book identity.candidates
    let answer := (gate.enter identity draw).1
    let next := (gate.enter identity draw).2
    (gate.clock.failing = true →
      answer = .permit .untracked ∧
        next.stats = stats ∧ next.breakers = gate.breakers ∧ next.book = gate.book ∧
        ∀ (later : Gate) (success : Option Bool), later.finish .untracked success = later) ∧
    (∀ r axis, answer.reason? = some (.rateLimit r axis) →
      r = leased ∧ next.breakers = gate.breakers ∧ next.book = gate.book ∧
        (∀ r', next.stats.inFlight r' = stats.inFlight r') ∧
        stats.Books now [(r, .blockedByLimiter)] next.stats ∧
        ∀ r', (next.stats.slotFor r' present).latency = (stats.slotFor r' present).latency ∧
          (next.stats.slotFor r' present).state = (stats.slotFor r' present).state) ∧
    ∀ r state, answer.reason? = some (.circuitBreaker r state) →
      Registry.guarded? gate.book identity.candidates = some r ∧ state ≠ .closed ∧
        (∃ b, next.breakers.get? r = some b ∧ b.phase.state = state) ∧ next.book = gate.book ∧
        (∀ r', next.stats.inFlight r' = stats.inFlight r') ∧
        stats.Books now [(leased, .started), (r, .blockedByBreaker)] next.stats ∧
        ∀ r', (next.stats.slotFor r' present).latency = (stats.slotFor r' present).latency := by
  intro gate stats now present leased answer next
  have hgate : gate.Ordered :=
    after_of_step (I := fun run => run.gate.Ordered) (fun _ event h => ordered_step h event) events
      (.new (RuleBook.consistent_ofChanges changes) _ clock)
  have htidy : stats.Tidy := tidy_after (RuleBook.ofChanges changes) slotMs retained clock events
  -- all that matters of the run is stated, and the gate can be any
  clear_value gate
  cases hf : gate.clock.failing with
  | true =>
    have henter := gate.enter_of_failing hf identity draw
    have hanswer : answer = .permit .untracked := congrArg Prod.fst henter
    have hnext : next = { gate with clock := { gate.clock with failing := false } } :=
      congrArg Prod.snd henter
    rw [hanswer, hnext]
    exact ⟨fun _ => ⟨rfl, rfl, rfl, rfl, fun _ _ => rfl⟩, nofun, nofun⟩
  | false =>
    have hanswered : Gate.Answer gate identity now draw answer next := by
      have hworking := gate.answer_enterAt identity now draw
      rwa [← Gate.enter_of_working hf] at hworking
    refine ⟨nofun, fun r axis hr => ?_, fun r state hr => ?_⟩
    · obtain ⟨hbound, hbreakers, hbooked⟩ := hanswered.of_rateLimit hr
      exact ⟨hbound, hbreakers, hanswered.breakers_cases.1,
        (hanswered.sameUnits_of_deny hr).inFlight,
        (hbooked.mono fun _ hc => hc.decides.made).books htidy, fun r' =>
          ⟨(hbooked.mono fun _ hc => hc.decides).latency_eq htidy r', hbooked.state_eq htidy r'⟩⟩
    · obtain ⟨hguarded, hclosed, hleft, hbooked⟩ := hanswered.of_circuitBreaker hgate hr
      exact ⟨hguarded, hclosed, hleft, hanswered.breakers_cases.1,
        (hanswered.sameUnits_of_deny hr).inFlight, (hbooked.mono fun _ hc => hc.made).books htidy,
        hbooked.latency_eq htidy⟩

/-- One request for a service may be in flight, and one error opens its breaker. The second request
finds the first in flight; the one that comes after the first has failed opens the breaker. -/
theorem denials_are_confined_blocked :
    let shop := Resource.service "shop"
    let limit : LimitRule := { resource := shop, concurrency := some 1 }
    let degrade : DegradeRule :=
      { resource := shop, strategy := .totalErrors 1, resume := .immediate, breakMs := 1000 }
    let book := RuleBook.ofChanges [.rateLimit (.upsert limit), .degrade (.upsert degrade)]
    let request : Identity := { service := "shop" }
    let run := start book 1000 10 { now := 1500 }
    let crowded := (run.after [.enter request 0.5]).gate
    let failed := (run.after [.enter request 0.5, .finish 0 (some false)]).gate
    let denied := (crowded.enter request 0.5).2
    let rejected := (failed.enter request 0.5).2
    (denied.stats.inFlight shop = 1 ∧ denied.stats.counted shop 1000 .started = 1 ∧
      denied.stats.counted shop 1000 .blockedByLimiter = 1) ∧
    (rejected.stats.inFlight shop = 0 ∧ rejected.stats.counted shop 1000 .started = 2 ∧
      rejected.stats.counted shop 1000 .blockedByBreaker = 1 ∧
      ∃ b, rejected.breakers.get? shop = some b ∧ b.phase.state = .open) := by
  intro shop limit degrade book request run crowded failed denied rejected
  have hdenied : (crowded.enter request 0.5).1.reason? = some (.rateLimit shop .concurrency) := by
    decide +kernel
  have hrejected : (failed.enter request 0.5).1.reason? = some (.circuitBreaker shop .open) := by
    decide +kernel
  have hbefore : (crowded.stats.inFlight shop = 1 ∧ crowded.stats.counted shop 1000 .started = 1 ∧
      crowded.stats.counted shop 1000 .blockedByLimiter = 0) ∧
      failed.stats.inFlight shop = 0 ∧ failed.stats.counted shop 1000 .started = 1 ∧
      failed.stats.counted shop 1000 .blockedByBreaker = 0 := by
    decide +kernel
  have hplace : crowded.stats.grid.floor crowded.clock.now = 1000 ∧
      failed.stats.grid.floor failed.clock.now = 1000 := by decide +kernel
  -- spelled out, the runs are compared by what is written and not by what they come to
  obtain ⟨-, hlimited, -⟩ := denials_are_confined
    [.rateLimit (.upsert limit), .degrade (.upsert degrade)] 1000 10 { now := 1500 }
    [.enter request 0.5] request 0.5
  obtain ⟨-, -, hbroken⟩ := denials_are_confined
    [.rateLimit (.upsert limit), .degrade (.upsert degrade)] 1000 10 { now := 1500 }
    [.enter request 0.5, .finish 0 (some false)] request 0.5
  simp only [run, book, crowded, failed, denied, rejected] at hdenied hrejected hbefore hplace ⊢
  obtain ⟨-, -, -, hunits, hbooks, -⟩ := hlimited _ _ hdenied
  obtain ⟨-, -, hleft, -, hunits', hbooks', -⟩ := hbroken _ _ hrejected
  obtain ⟨⟨hflight, hstarted, hblocked⟩, hflight', hstarted', hblocked'⟩ := hbefore
  have hcount := hbooks.counted shop
  have hcount' := hbooks'.counted shop
  rw [hplace.1] at hcount
  rw [hplace.2] at hcount'
  refine ⟨⟨(hunits shop).trans hflight, ?_, ?_⟩, (hunits' shop).trans hflight', ?_, ?_, hleft⟩
  · rw [hcount, hstarted]
    rfl
  · rw [hcount, hblocked]
    rfl
  · rw [hcount', hstarted']
    decide
  · rw [hcount', hblocked']
    decide

end GateRun
end Floodgate
