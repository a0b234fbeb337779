import Floodgate.DryRun
import Floodgate.Proofs.Admission.Precedence
import Floodgate.Proofs.Admission.Units
import Floodgate.Proofs.Rule.Sanity
import Floodgate.Proofs.Rule.Targets

/-!
# What a dry run prints

A dry run prints the gate's decision of every line that holds a request, and of no other line, in
the order of the lines. A request that is let through is completed before the next line is read, so
between two lines no permit is out. That is what carries the rest: with nothing in flight a request
could only run into a ceiling of zero, and documents set none (`LimitRule.IsSane`).

`Gate.AtRest` is the invariant, and `DryRun.atRest_after` has it for every run, whatever becomes of
the rule file, the clock and the idle resources between the lines.
-/

set_option autoImplicit false

namespace Floodgate

/-! ## Blank lines -/

namespace Json

theorem not_isDigit_of_isBlank {c : Char} (h : Text.isBlank c = true) : c.isDigit = false := by
  simp only [Text.isBlank, Text.blankRanges, List.any_cons, List.any_nil, Bool.or_eq_true,
    Bool.and_eq_true, decide_eq_true_eq, Bool.or_false] at h
  simp only [Char.isDigit, ge_iff_le, UInt32.le_iff_toNat_le, Bool.and_eq_false_iff,
    decide_eq_false_iff_not]
  change ¬ 48 ≤ c.toNat ∨ ¬ c.toNat ≤ 57
  omega

/-- No token begins with blank space. -/
theorem scan?_of_isBlank {c : Char} (h : Text.isBlank c = true) (cs : List Char) :
    scan? c cs = none := by
  have hdigits : digitsOf (c :: cs) = [] := by simp [digitsOf, not_isDigit_of_isBlank h]
  unfold scan?
  split
  case h_12 => simp [scanNumber?, hdigits]
  all_goals exact absurd h (by decide)

/-- Blank space holds no token. Not all of it may stand in a text of JSON. -/
theorem tokensFrom_of_isBlank {cs : List Char} (h : ∀ c ∈ cs, Text.isBlank c = true) :
    tokensFrom cs [] = some [] ∨ tokensFrom cs [] = none := by
  induction cs with
  | nil => exact .inl (by rw [tokensFrom]; rfl)
  | cons c cs ih =>
    obtain ⟨hc, hcs⟩ := List.forall_mem_cons.mp h
    rw [tokensFrom, scan?_of_isBlank hc]
    split
    · exact ih hcs
    · exact .inr rfl

theorem read?_of_isAllBlank {text : String} (h : Text.isAllBlank text = true) :
    read? text = none := by
  rw [read?, tokens?]
  rcases tokensFrom_of_isBlank (Text.isBlank_of_isAllBlank h) with htokens | htokens
  · rw [htokens]
    rfl
  · rw [htokens]
    rfl

end Json

theorem DryRequest.ofLine?_of_isAllBlank {line : String} (h : Text.isAllBlank line = true) :
    ofLine? line = none := by
  rw [ofLine?, Json.read?_of_isAllBlank h]
  rfl

/-! ## Runs -/

/-- One thing that happens in a dry run. -/
inductive DryEvent where
  /-- A line is read. -/
  | line (text : String) (draw : Float)
  /-- The clock is set. Without a time its next reading fails. -/
  | clock (now : Option Nat)
  /-- The rule file is read again; there is no text if it cannot be. -/
  | reload (text : Option String) (now : Nat)
  | housekeep (now : Nat)

/-- The request that is made, if one is. -/
def DryEvent.request? : DryEvent → Option DryRequest
  | line text _ => DryRequest.ofLine? text
  | _ => none

namespace DryRun

/-- The run after one event, and the decision that is printed, if one is. -/
def step (d : DryRun) : DryEvent → Option DryDecision × DryRun
  | .line text draw => d.serve text draw
  | .clock now => (none, d.setClock now)
  | .reload text now => (none, d.reload text now)
  | .housekeep now => (none, (d.housekeep now).2)

/-- The run after events, one after another. -/
def after (d : DryRun) (events : List DryEvent) : DryRun :=
  events.foldl (fun d event => (d.step event).2) d

/-- The decisions that a run prints, in order. -/
def printed (d : DryRun) : List DryEvent → List DryDecision
  | [] => []
  | event :: events => (d.step event).1.toList ++ (d.step event).2.printed events

theorem printed_append (d : DryRun) (events events' : List DryEvent) :
    d.printed (events ++ events') = d.printed events ++ (d.after events).printed events' := by
  induction events generalizing d with
  | nil => rfl
  | cons event events ih =>
    rw [List.cons_append, printed, ih, printed, List.append_assoc]
    rfl

end DryRun

/-! ## What is printed -/

/-- What a line with a request is answered with, told by what the gate answers to the request: that it
is admitted is said exactly of a request that gets a permit, and why it is not only of one that does
not. `g'` is the gate that the next line finds. By then a permit has been given back, with the outcome
that the line foretells. -/
structure Gate.Serves (g : Gate) (request : DryRequest) (draw : Float) (decision : DryDecision)
    (g' : Gate) : Prop where
  service : decision.service = request.identity.service
  of_permit : ∀ p entered, g.enter request.identity draw = (.permit p, entered) →
    decision.admitted = true ∧ decision.resource = p.resource? ∧ decision.probe = p.isProbe ∧
      decision.reason = none ∧ decision.response = none ∧ g' = entered.complete p request.success
  of_deny : ∀ denial entered, g.enter request.identity draw = (.deny denial, entered) →
    decision.admitted = false ∧ decision.resource = some denial.reason.resource ∧
      decision.probe = false ∧ decision.reason = some denial.reason.message ∧
      decision.response = some denial.response ∧ g' = entered

theorem Gate.serves_decide (g : Gate) (request : DryRequest) (draw : Float) :
    g.Serves request draw (g.decide request draw).1 (g.decide request draw).2 where
  service := by
    unfold decide
    dsimp only
    split <;> rfl
  of_permit p entered hentered := by
    rw [decide, hentered]
    exact ⟨rfl, rfl, rfl, rfl, rfl, rfl⟩
  of_deny denial entered hentered := by
    rw [decide, hentered]
    exact ⟨rfl, rfl, rfl, rfl, rfl, rfl⟩

/-- A decision gives the gate's reason in words. -/
theorem Gate.reason_decide (g : Gate) (request : DryRequest) (draw : Float) :
    (g.decide request draw).1.reason =
      (g.enter request.identity draw).1.reason?.map Blocked.message := by
  unfold decide
  rcases g.enter request.identity draw with ⟨_ | _, _⟩ <;> rfl

/-- That blank lines are skipped without being looked at changes nothing. -/
theorem Gate.serveLine_eq (g : Gate) (line : String) (draw : Float) :
    g.serveLine line draw =
      match DryRequest.ofLine? line with
      | none => (none, g)
      | some request => (some (g.decide request draw).1, (g.decide request draw).2) := by
  unfold serveLine
  split
  · rename_i hblank
    rw [DryRequest.ofLine?_of_isAllBlank hblank]
  · rfl

namespace DryRun

theorem serve_eq (d : DryRun) (line : String) (draw : Float) :
    d.serve line draw =
      ((d.gate.serveLine line draw).1, { d with gate := (d.gate.serveLine line draw).2 }) := by
  rw [serve]

theorem step_line (d : DryRun) (text : String) (draw : Float) :
    d.step (.line text draw) =
      match DryRequest.ofLine? text with
      | none => (none, d)
      | some request =>
        (some (d.gate.decide request draw).1, { d with gate := (d.gate.decide request draw).2 }) := by
  rw [step, serve_eq, Gate.serveLine_eq]
  cases DryRequest.ofLine? text <;> rfl

theorem step_line_of_none (d : DryRun) {text : String} (h : DryRequest.ofLine? text = none)
    (draw : Float) : d.step (.line text draw) = (none, d) := by
  rw [step_line, h]

theorem step_line_of_some (d : DryRun) {text : String} {request : DryRequest}
    (h : DryRequest.ofLine? text = some request) (draw : Float) :
    d.step (.line text draw) =
      (some (d.gate.decide request draw).1, { d with gate := (d.gate.decide request draw).2 }) := by
  rw [step_line, h]

theorem service_step (d : DryRun) (event : DryEvent) :
    (d.step event).1.map DryDecision.service =
      event.request?.map fun request => request.identity.service := by
  cases event with
  | line text draw =>
    rw [DryEvent.request?]
    cases hrequest : DryRequest.ofLine? text with
    | none =>
      rw [d.step_line_of_none hrequest]
      rfl
    | some request =>
      rw [d.step_line_of_some hrequest]
      exact congrArg some (d.gate.serves_decide request draw).service
  | clock now => rfl
  | reload text now => rfl
  | housekeep now => rfl

/-- There is a decision for every request, in the order of requests, and no other. -/
theorem services_printed (d : DryRun) (events : List DryEvent) :
    (d.printed events).map DryDecision.service =
      (events.filterMap DryEvent.request?).map fun request => request.identity.service := by
  induction events generalizing d with
  | nil => rfl
  | cons event events ih =>
    have hstep := d.service_step event
    rw [printed, List.map_append, ih, List.filterMap_cons]
    cases hrequest : event.request? with
    | none =>
      rw [hrequest] at hstep
      rw [Option.map_eq_none_iff.mp hstep]
      rfl
    | some request =>
      rw [hrequest] at hstep
      obtain ⟨decision, hdecision, hservice⟩ := Option.map_eq_some_iff.mp hstep
      rw [hdecision, List.map_cons]
      exact congrArg (· :: _) hservice

end DryRun

/-! ## Reasons in words -/

/-- The text of a reason says whether it is a ceiling of concurrency. -/
theorem Blocked.eq_concurrency_of_message {why : Blocked} {r : Resource}
    (h : why.message = (rateLimit r .concurrency).message) :
    ∃ r', why = .rateLimit r' .concurrency := by
  -- the texts are told apart at their ends
  have hend := congrArg (fun s : String => s.toList.reverse[6]?) h
  have hlast := congrArg (fun s : String => s.toList.reverse[0]?) h
  cases why with
  | rateLimit r' axis =>
    cases axis with
    | concurrency => exact ⟨r', rfl⟩
    | qps => simp [message, LimitAxis.label] at hend
  | circuitBreaker r' state => simp [message] at hlast

/-! ## A gate between two lines -/

/-- No permit is out, and the rules are such as documents put in force. -/
structure Gate.AtRest (g : Gate) : Prop where
  units : Accounted g.stats []
  book : g.book.Consistent
  limits : ∀ rule ∈ g.book.limits.rules, rule.IsSane

namespace Gate.AtRest

variable {g g' : Gate}

theorem new (slotMs retained : Nat) (clock : Clock) :
    (Gate.new .empty (StatStore.new slotMs retained) clock).AtRest where
  units := .new slotMs retained
  book := RuleBook.consistent_empty
  limits _ hrule := absurd hrule List.not_mem_nil

theorem inFlight (h : g.AtRest) (r : Resource) : g.stats.inFlight r = 0 := h.units.inFlight r

/-- At a gate at rest no ceiling of concurrency is reached. Ceilings are one at least, and nothing
is in flight. -/
theorem not_crowded (h : g.AtRest) (identity : Identity) (draw : Float) (r : Resource) :
    (g.enter identity draw).1.reason? ≠ some (.rateLimit r .concurrency) := by
  intro hreason
  cases hf : g.clock.failing with
  | true =>
    rw [enter_of_failing hf] at hreason
    cases hreason
  | false =>
    rw [enter_of_working hf,
      (g.answer_enterAt identity g.clock.now draw).reason?_eq_rateLimit_iff] at hreason
    obtain ⟨rule, hdenied⟩ := hreason
    obtain ⟨hrule, ceiling, hceiling, hreached⟩ := Limiter.ceiling_of_denied hdenied
    have hmem := ((Limiter.resolve_eq_some_iff h.book identity).mp hrule).mem
    have hleast := ((h.limits rule hmem).concurrency ceiling hceiling).1
    rw [h.inFlight] at hreached
    omega

theorem of_book (h : g.AtRest) (hunits : Accounted g'.stats []) (hbook : g'.book = g.book) :
    g'.AtRest where
  units := hunits
  book := hbook ▸ h.book
  limits := hbook ▸ h.limits

/-- A decided request has given back what it held. Between its arrival and its end nothing else
happens at the gate. -/
theorem decide (h : g.AtRest) (request : DryRequest) (draw : Float) :
    (g.decide request draw).2.AtRest := by
  have hunits := h.units.enter request.identity draw
  have hbook := g.book_enter request.identity draw
  rw [Gate.decide]
  generalize g.enter request.identity draw = answered at hunits hbook ⊢
  obtain ⟨p | d, g'⟩ := answered
  · exact h.of_book (hunits.finish (n := 0) rfl (some request.success))
      ((g'.book_finish p _).trans hbook)
  · exact h.of_book hunits hbook

theorem serveLine (h : g.AtRest) (line : String) (draw : Float) :
    (g.serveLine line draw).2.AtRest := by
  rw [serveLine_eq]
  cases DryRequest.ofLine? line with
  | none => exact h
  | some request => exact h.decide request draw

theorem applyRules (h : g.AtRest) (raws : List RawRule) : (g.applyRules raws).2.AtRest where
  units := h.units
  book := loader.consistent_applyAll raws h.book
  limits := loader.isSane_applyAll raws g.breakers h.book h.limits

theorem withClock (h : g.AtRest) (clock : Clock) : { g with clock }.AtRest :=
  h.of_book h.units rfl

end Gate.AtRest

/-! ## Between the lines of a run -/

theorem Housekeeper.sameUnits_tick (k : Housekeeper) (stats : StatStore) (clock : Clock) :
    stats.SameUnits (k.tick stats clock).2.1 := by
  unfold tick
  split
  · exact stats.sameUnits_evictIdle _ k.idleMs
  · exact .refl stats

namespace DryRun

variable {d : DryRun}

/-- Whatever rules a run begins with, nothing is in flight. -/
theorem atRest_of_start {settings : Settings} {rules : Option (Option String)} {now : Nat}
    (hstart : start settings rules now = .ok d) : d.gate.AtRest := by
  have hnew := Gate.AtRest.new settings.stats.slotDurationMs settings.stats.retentionSlots { now }
  unfold start at hstart
  dsimp only at hstart
  split at hstart
  · cases hstart
    exact hnew
  · split at hstart
    · cases hstart
      exact hnew.applyRules _
    · cases hstart

theorem atRest_housekeep (h : d.gate.AtRest) (now : Nat) : (d.housekeep now).2.gate.AtRest := by
  unfold housekeep
  split
  · exact h.of_book (h.units.same (d.housekeeper.sameUnits_tick _ _)) rfl
  · exact h

theorem atRest_step (h : d.gate.AtRest) (event : DryEvent) : (d.step event).2.gate.AtRest := by
  cases event with
  | line text draw =>
    rw [step, serve_eq]
    exact h.serveLine text draw
  | clock now => exact h.withClock _
  | reload text now => exact h.applyRules _
  | housekeep now => exact atRest_housekeep h now

theorem atRest_after (h : d.gate.AtRest) (events : List DryEvent) :
    (d.after events).gate.AtRest := by
  induction events generalizing d with
  | nil => exact h
  | cons event events ih => exact ih (atRest_step h event)

theorem reason_of_step (h : d.gate.AtRest) {event : DryEvent} {decision : DryDecision}
    (hdecision : (d.step event).1 = some decision) (r : Resource) :
    decision.reason ≠ some (Blocked.rateLimit r .concurrency).message := by
  intro hreason
  cases event with
  | line text draw =>
    obtain ⟨request, rfl⟩ : ∃ request, decision = (d.gate.decide request draw).1 := by
      cases hrequest : DryRequest.ofLine? text with
      | none =>
        rw [d.step_line_of_none hrequest] at hdecision
        cases hdecision
      | some request =>
        rw [d.step_line_of_some hrequest] at hdecision
        exact ⟨request, (Option.some.inj hdecision).symm⟩
    rw [Gate.reason_decide] at hreason
    obtain ⟨why, hwhy, hmessage⟩ := Option.map_eq_some_iff.mp hreason
    obtain ⟨r', rfl⟩ := Blocked.eq_concurrency_of_message hmessage
    exact h.not_crowded request.identity draw r' hwhy
  | clock now => cases hdecision
  | reload text now => cases hdecision
  | housekeep now => cases hdecision

theorem reason_of_mem_printed (h : d.gate.AtRest) {events : List DryEvent} {decision : DryDecision}
    (hdecision : decision ∈ d.printed events) (r : Resource) :
    decision.reason ≠ some (Blocked.rateLimit r .concurrency).message := by
  induction events generalizing d with
  | nil => cases hdecision
  | cons event events ih =>
    rcases List.mem_append.mp hdecision with hnow | hlater
    · exact reason_of_step h (Option.mem_toList.mp hnow) r
    · exact ih (atRest_step h event) hlater

/-- What one more line adds to a run. What has been printed for the lines before it stays. -/
theorem printed_line (d : DryRun) (events : List DryEvent) (text : String) (draw : Float) :
    d.printed (events ++ [.line text draw]) =
        d.printed events ++ ((d.after events).step (.line text draw)).1.toList ∧
      d.after (events ++ [.line text draw]) = ((d.after events).step (.line text draw)).2 := by
  refine ⟨?_, ?_⟩
  · rw [printed_append, printed, printed, List.append_nil]
  · rw [after, List.foldl_append]
    rfl

/-- **A dry run answers requests one by one**, whatever rules it begins with, and whatever becomes
of them, of the clock and of idle resources between the lines. It prints one decision for every line
that holds a request, in the order of lines, and that is the answer of the gate as the lines before
have left it. Other lines print nothing and change nothing, blank ones among them. Between two lines
nothing is in flight, so no request is turned away for want of concurrency, and no decision that is
printed says so. -/
theorem requests_are_answered_one_by_one {settings : Settings} {rules : Option (Option String)}
    {now : Nat} (hstart : start settings rules now = .ok d) (events : List DryEvent) :
    (d.printed events).map DryDecision.service =
      (events.filterMap DryEvent.request?).map (fun request => request.identity.service) ∧
    (∀ (text : String) (draw : Float),
      match DryRequest.ofLine? text with
      | none => d.printed (events ++ [.line text draw]) = d.printed events ∧
          d.after (events ++ [.line text draw]) = d.after events
      | some request => ∃ decision,
          d.printed (events ++ [.line text draw]) = d.printed events ++ [decision] ∧
          (d.after events).gate.Serves request draw decision
            (d.after (events ++ [.line text draw])).gate) ∧
    (∀ text : String, Text.isAllBlank text = true → DryRequest.ofLine? text = none) ∧
    (∀ r : Resource, (d.after events).gate.stats.inFlight r = 0) ∧
    (∀ (identity : Identity) (draw : Float) (r : Resource),
      ((d.after events).gate.enter identity draw).1.reason? ≠ some (.rateLimit r .concurrency)) ∧
    ∀ decision ∈ d.printed events, ∀ r,
      decision.reason ≠ some (Blocked.rateLimit r .concurrency).message := by
  -- between two lines nothing is in flight, which is why no ceiling is ever met
  have hrest := atRest_of_start hstart
  have hafter := atRest_after hrest events
  refine ⟨d.services_printed events, fun text draw => ?_,
    fun text => DryRequest.ofLine?_of_isAllBlank, hafter.inFlight, hafter.not_crowded,
    fun decision hdecision => reason_of_mem_printed hrest hdecision⟩
  obtain ⟨hprinted, hleft⟩ := d.printed_line events text draw
  rw [hprinted, hleft]
  cases hrequest : DryRequest.ofLine? text with
  | none =>
    rw [step_line_of_none _ hrequest]
    exact ⟨List.append_nil _, rfl⟩
  | some request =>
    rw [step_line_of_some _ hrequest]
    exact ⟨_, rfl, (d.after events).gate.serves_decide request draw⟩

/-- Three requests for a service that may have one in flight, and two in a second, with a blank line
among them. Two are admitted, as the first is over when the second comes, and the third is not. One
more line, a second later, is answered by the gate that these have left. -/
theorem requests_are_answered_one_by_one_narrow :
    let rules :=
      "\x7b\"rateLimits\": [\x7b\"type\": 3, \"service\": \"shop\", \"concurrents\": 1, \"qps\": 2\x7d]\x7d"
    let text := "\x7b\"service\": \"shop\", \"success\": false\x7d"
    let request : DryRequest := { identity := { service := "shop" }, success := false }
    let events : List DryEvent := [.line text 0.5, .line "\u2003" 0.5, .line text 0.5,
      .line text 0.5, .clock (some 1000)]
    ∃ d, start {} (some (some rules)) 0 = .ok d ∧
      (d.after events).gate.book.limits.rules.map LimitRule.concurrency = [some 1] ∧
      d.printed events =
        [{ service := "shop", admitted := true, resource := some (.service "shop") },
          { service := "shop", admitted := true, resource := some (.service "shop") },
          { service := "shop", admitted := false, resource := some (.service "shop"),
            reason := some "^^^shop^ exceeded its qps limit",
            response := some .tooManyRequests }] ∧
      (d.after events).gate.stats.inFlight (.service "shop") = 0 ∧
      ∃ decision, d.printed (events ++ [.line text 0.5]) = d.printed events ++ [decision] ∧
        (d.after events).gate.Serves request 0.5 decision
          (d.after (events ++ [.line text 0.5])).gate := by
  intro rules text request events
  have hrun : (start {} (some (some rules)) 0).toOption.map (fun d =>
      ((d.after events).gate.book.limits.rules.map LimitRule.concurrency, d.printed events)) =
      some ([some 1],
        [{ service := "shop", admitted := true, resource := some (.service "shop") },
          { service := "shop", admitted := true, resource := some (.service "shop") },
          { service := "shop", admitted := false, resource := some (.service "shop"),
            reason := some "^^^shop^ exceeded its qps limit",
            response := some .tooManyRequests }]) := by decide +kernel
  have hrequest : DryRequest.ofLine? text = some request := by decide +kernel
  cases hstart : start {} (some (some rules)) 0 with
  | error e =>
    rw [hstart] at hrun
    cases hrun
  | ok d =>
    rw [hstart] at hrun
    obtain ⟨hceilings, hprinted⟩ := Prod.mk.inj (Option.some.inj hrun)
    obtain ⟨-, hline, -, hrest, -, -⟩ := requests_are_answered_one_by_one hstart events
    have hnext := hline text 0.5
    rw [hrequest] at hnext
    exact ⟨d, rfl, hceilings, hprinted, hrest (.service "shop"), hnext⟩

end DryRun
end Floodgate
