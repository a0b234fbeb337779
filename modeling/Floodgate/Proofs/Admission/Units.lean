import Floodgate.Proofs.Admission.Run
import Floodgate.Proofs.Limiter
import Floodgate.Proofs.Rule.Indices

/-!
# The units that live permits hold

In every run of a gate the requests in flight on a resource are exactly the live permits that are
counted under it. The invariant is `Accounted`, and its second half is what carries it: a live
permit holds the present series of its resource, and not one that has been evicted since, so that
what it gives back is missed nowhere. Series are only evicted while they have no units, and a
live permit is a unit.

Breakers write statistics too, but touch no units; a section of its own says so. The result is
`GateRun.inFlight_eq_liveOn`, with what it means for a ceiling of concurrency.
-/

set_option autoImplicit false

namespace Floodgate

/-! ## Breakers and outcomes touch no units -/

theorem Breaker.sameUnits_enter (b : Breaker) (next : Phase) (stats : StatStore) :
    stats.SameUnits (b.enter next stats).2 := stats.sameUnits_recordState _ _ _

/-- A breaker reads a window and writes states, and neither is about units. -/
theorem Breaker.sameUnits_permit (b : Breaker) (stats : StatStore) (now : Nat) (draw : Float) :
    stats.SameUnits (b.permit stats now draw).2.2 := by
  unfold Breaker.permit
  dsimp only
  split
  · exact (b.sameUnits_enter _ stats).trans (StatStore.sameUnits_recordState _ _ _ _)
  · exact stats.sameUnits_recordState _ _ _

theorem Breaker.sameUnits_onProbeOutcome (b : Breaker) (success : Bool) (stats : StatStore)
    (now : Nat) : stats.SameUnits (b.onProbeOutcome success stats now).2 := by
  unfold Breaker.onProbeOutcome
  split
  · exact b.sameUnits_enter _ stats
  · exact .refl stats

namespace Registry

theorem sameUnits_permitBy (g : Registry) (h : Handle Resource) (b : Breaker) (stats : StatStore)
    (now : Nat) (draw : Float) : stats.SameUnits (g.permitBy h b stats now draw).2.2 := by
  have hsame := b.sameUnits_permit stats now draw
  unfold permitBy
  dsimp only
  split
  · exact hsame
  · exact hsame
  · exact hsame.trans (StatStore.sameUnits_incr _ _ _ now)

theorem sameUnits_permit (g : Registry) (book : RuleBook) (stats : StatStore)
    (candidates : List Resource) (now : Nat) (draw : Float) :
    stats.SameUnits (g.permit book stats candidates now draw).2.2 := by
  unfold permit
  dsimp only
  split
  · exact sameUnits_permitBy _ _ _ stats now draw
  · exact .refl stats

theorem sameUnits_onProbeOutcome (g : Registry) (h : Handle Resource) (success : Bool)
    (stats : StatStore) (now : Nat) :
    stats.SameUnits (g.onProbeOutcome h success stats now).2 := by
  unfold onProbeOutcome
  split
  · exact Breaker.sameUnits_onProbeOutcome _ success stats now
  · exact .refl stats

end Registry

namespace Gate

theorem sameUnits_recordOutcome (stats : StatStore) (r : Resource) (failed : Bool)
    (latency now : Nat) : stats.SameUnits (recordOutcome stats r failed latency now) := by
  have hcompleted := stats.sameUnits_incr r .completed now
  unfold recordOutcome
  dsimp only
  split
  · exact (hcompleted.trans (StatStore.sameUnits_incr _ _ _ now)).trans
      (StatStore.sameUnits_recordLatency _ _ _ now)
  · exact hcompleted.trans (StatStore.sameUnits_recordLatency _ _ _ now)

/-- Of all that is done when a permit comes back, only the release is about units. The counts may
make a series, which begins with no units at all. -/
theorem sameUnits_finishAt (g : Gate) (t : Tracked) (success : Option Bool) (now : Nat) :
    (g.stats.release t.lease.series).SameUnits (g.finishAt t success now).stats := by
  have hcounted : (g.stats.release t.lease.series).SameUnits (g.counted t success now) := by
    have hlease := sameUnits_recordOutcome (Limiter.release g.stats t.lease) t.lease.resource
      (decide (success = some false)) (now - t.admittedAt) now
    unfold counted
    dsimp only
    split
    · exact hlease
    · split
      · exact hlease
      · exact hlease.trans (sameUnits_recordOutcome _ _ _ _ now)
  rw [finishAt_eq]
  split
  · exact hcounted
  · exact hcounted.trans (Registry.sameUnits_onProbeOutcome _ _ _ _ now)

/-- **A request that is turned away holds nothing**, whoever turns it away. If it is a breaker, the
limiter has already given a unit, and takes it back. -/
theorem Answer.sameUnits_of_deny {g g' : Gate} {identity : Identity} {now : Nat} {draw : Float}
    {a : Admission} (ha : Answer g identity now draw a g') {why : Blocked}
    (hdenied : a.reason? = some why) : g.stats.SameUnits g'.stats := by
  cases ha with
  | unguarded => cases hdenied
  | guarded => cases hdenied
  | overLimit limited => exact Limiter.sameUnits_of_denied limited
  | @broken lease leased stats breakers hd state limited verdict =>
    have hasked := g.breakers.sameUnits_permit g.book leased identity.candidates now draw
    rw [verdict] at hasked
    -- the unit is held while the breaker is asked, and goes back to where it came from
    have htaken := (Limiter.takesUnit_of_allowed limited).trans hasked
    exact htaken.gives (StatStore.givesUnit_release htaken.held)

end Gate

/-! ## The invariant -/

/-- The units are those of the live permits, and each live permit holds a unit of the present series
of its resource. The second part rules out that a series is evicted and made anew while a permit of
the old one is out, for then its unit would be given back to nobody. -/
structure Accounted (stats : StatStore) (live : List Permit) : Prop where
  inFlight : ∀ r, stats.inFlight r = liveOn r live
  held : ∀ {t : Tracked}, .tracked t ∈ live →
    stats.series.handle? t.lease.resource = some t.lease.series

namespace Accounted

variable {stats stats' : StatStore} {live : List Permit} {n : Nat} {t : Tracked}

theorem new (slotMs retained : Nat) : Accounted (StatStore.new slotMs retained) [] where
  inFlight _ := rfl
  held ht := absurd ht List.not_mem_nil

/-- A live permit keeps the count of its resource above zero, and so keeps the series from being
evicted. -/
theorem pos (h : Accounted stats live) (ht : .tracked t ∈ live) :
    0 < stats.inFlight t.lease.resource := by
  rw [h.inFlight]
  exact liveOn_pos ht rfl

/-- What does not touch units keeps the account. It may still evict series, but none that has units.
-/
theorem same (h : Accounted stats live) (hs : stats.SameUnits stats') : Accounted stats' live where
  inFlight r := (hs.inFlight r).trans (h.inFlight r)
  held ht := hs.handle (h.pos ht) (h.held ht)

theorem take (h : Accounted stats live)
    (hs : stats.TakesUnit stats' t.lease.resource t.lease.series) :
    Accounted stats' (live ++ [.tracked t]) where
  inFlight r := by
    rw [hs.inFlight, h.inFlight, liveOn_append]
    simp [Permit.resource?, Permit.tracked?, eq_comm]
  held {u} hu := by
    rcases List.mem_append.mp hu with hlive | hnew
    · exact hs.handle (h.pos hlive) (h.held hlive)
    · cases List.mem_singleton.mp hnew
      exact hs.held

/-- To release a live permit is to give a unit back: its handle is still that of the present series.
-/
theorem gives (h : Accounted stats live) (ht : live[n]? = some (.tracked t)) :
    stats.GivesUnit (stats.release t.lease.series) t.lease.resource :=
  StatStore.givesUnit_release (h.held (List.mem_of_getElem? ht))

theorem give (h : Accounted stats live) (ht : live[n]? = some (.tracked t)) :
    Accounted (stats.release t.lease.series) (live.eraseIdx n) where
  inFlight r := by
    rw [(h.gives ht).inFlight, h.inFlight, liveOn_eraseIdx ht]
    simp [Permit.resource?, Permit.tracked?, eq_comm]
  held {u} hu := by
    have hlive := List.mem_of_mem_eraseIdx hu
    exact (h.gives ht).handle (h.pos hlive) (h.held hlive)

/-- A permit that was given without the clock holds no unit, and is counted nowhere. -/
theorem append_untracked (h : Accounted stats live) : Accounted stats (live ++ [.untracked]) where
  inFlight r := by
    rw [h.inFlight, liveOn_append]
    rfl
  held {u} hu := by
    rcases List.mem_append.mp hu with hlive | hnew
    · exact h.held hlive
    · cases List.mem_singleton.mp hnew

theorem erase_untracked (h : Accounted stats live) (hn : live[n]? = some .untracked) :
    Accounted stats (live.eraseIdx n) where
  inFlight r := by
    rw [h.inFlight, liveOn_eraseIdx hn]
    rfl
  held hu := h.held (List.mem_of_mem_eraseIdx hu)

/-! ## One event -/

/-- **The answer to a request keeps the account**, whichever way the request goes. -/
theorem answer {g g' : Gate} {identity : Identity} {now : Nat} {draw : Float} {a : Admission}
    (h : Accounted g.stats live) (ha : Gate.Answer g identity now draw a g') :
    Accounted g'.stats (live ++ a.permit?.toList) := by
  have hdenied : ∀ why, a.reason? = some why → g.stats.SameUnits g'.stats := fun _ =>
    ha.sameUnits_of_deny
  cases ha with
  | overLimit limited =>
    rw [Admission.permit?, Option.toList_none, List.append_nil]
    exact h.same (hdenied _ rfl)
  | @unguarded lease leased stats' breakers limited verdict =>
    have hs := g.breakers.sameUnits_permit g.book leased identity.candidates now draw
    rw [verdict] at hs
    exact h.take ((Limiter.takesUnit_of_allowed limited).trans hs)
  | @guarded lease leased stats' breakers hd probe limited verdict =>
    have hs := g.breakers.sameUnits_permit g.book leased identity.candidates now draw
    rw [verdict] at hs
    exact h.take ((Limiter.takesUnit_of_allowed limited).trans hs)
  | broken limited verdict =>
    rw [Admission.permit?, Option.toList_none, List.append_nil]
    exact h.same (hdenied _ rfl)

theorem enter {g : Gate} (h : Accounted g.stats live) (identity : Identity) (draw : Float) :
    Accounted (g.enter identity draw).2.stats
      (live ++ (g.enter identity draw).1.permit?.toList) := by
  cases hf : g.clock.failing with
  | true =>
    rw [Gate.enter_of_failing hf]
    exact h.append_untracked
  | false =>
    rw [Gate.enter_of_working hf]
    exact h.answer (g.answer_enterAt identity g.clock.now draw)

theorem finish {g : Gate} (h : Accounted g.stats live) {p : Permit} (hp : live[n]? = some p)
    (success : Option Bool) :
    Accounted (g.finish p success).stats (live.eraseIdx n) := by
  cases p with
  | untracked => exact h.erase_untracked hp
  | tracked t =>
    rw [Gate.finish_tracked]
    exact (h.give hp).same
      (Gate.sameUnits_finishAt { g with clock := g.clock.read.2 } t success (g.finishTime t))

/-- Every event keeps the account. Documents and the clock do not come near it, and an eviction
spares all series with units. -/
theorem step {run : GateRun} (h : Accounted run.gate.stats run.live) (event : GateEvent) :
    Accounted (run.step event).gate.stats (run.step event).live := by
  cases event with
  | enter identity draw => exact h.enter identity draw
  | finish position success =>
    cases hp : run.live[position]? with
    | none =>
      rw [GateRun.step_finish_of_none hp]
      exact h
    | some p =>
      rw [GateRun.step_finish_of_some hp]
      exact h.finish hp success
  | rule raw => exact h
  | evict now idleMs => exact h.same (run.gate.stats.sameUnits_evictIdle now idleMs)
  | setClock now => exact h
  | advanceClock ms => exact h
  | failClock => exact h

end Accounted

/-! ## Runs -/

/-- What a ceiling of concurrency comes to at a gate whose units are accounted for. The limiter
compares its own count with the ceiling, and the account says what that count is. -/
theorem Gate.Answer.ceiling {g g' : Gate} {identity : Identity} {now : Nat} {draw : Float}
    {a : Admission} {live : List Permit} {rule : LimitRule} {ceiling : Nat}
    (ha : Answer g identity now draw a g') (h : Accounted g.stats live)
    (hrule : Limiter.resolve g.book identity.candidates = some rule)
    (hceiling : rule.concurrency = some ceiling) :
    (∀ r, a.reason? = some (.rateLimit r .concurrency) ↔
      r = rule.resource.bind identity.candidates ∧
        ceiling ≤ liveOn (rule.resource.bind identity.candidates) live) ∧
    ∀ p, a.permit? = some p →
      p.resource? = some (rule.resource.bind identity.candidates) ∧
        liveOn (rule.resource.bind identity.candidates) live < ceiling := by
  -- both parts are read off the decision of the limiter under the rule
  have hheld : Limiter.Held rule g.stats (rule.resource.bind identity.candidates) now
      (Limiter.permit g.book g.stats identity.candidates now).1
      (Limiter.permit g.book g.stats identity.candidates now).2 := by
    rw [Limiter.permit, hrule]
    exact Limiter.held_permitUnder rule g.stats identity.candidates now
  constructor
  · intro r
    rw [ha.reason?_eq_rateLimit_iff]
    constructor
    · rintro ⟨rule', hdenied⟩
      obtain ⟨⟨hr, -⟩, hfull⟩ := hheld.denied_concurrency_iff.mp hdenied
      exact ⟨hr, by simpa [hceiling, h.inFlight] using hfull⟩
    · rintro ⟨hr, hfull⟩
      exact ⟨rule, hheld.denied_concurrency_iff.mpr
        ⟨⟨hr, rfl⟩, by simpa [hceiling, h.inFlight] using hfull⟩⟩
  · intro p hp
    obtain ⟨lease, hallowed, hp⟩ := ha.permit?_eq_some hp
    rw [hallowed] at hheld
    obtain ⟨hr, hbelow⟩ := hheld.below
    exact ⟨hr ▸ hp, by simpa [hceiling, h.inFlight] using hbelow⟩

namespace GateRun

/-- The account is right at the start, where nobody has come in, and so throughout the run. -/
theorem accounted_after (book : RuleBook) (slotMs retained : Nat) (clock : Clock)
    (events : List GateEvent) :
    Accounted ((start book slotMs retained clock).after events).gate.stats
      ((start book slotMs retained clock).after events).live :=
  after_of_step (I := fun run => Accounted run.gate.stats run.live)
    (fun _ event h => h.step event) events (.new slotMs retained)

/-- **The requests in flight on a resource are its live permits**, in every run and for every
resource. So a ceiling of concurrency counts live permits: a request whose rule has a ceiling is
turned away for want of concurrency exactly if the ceiling is reached, and with a request that is
let through it is not exceeded. -/
theorem inFlight_eq_liveOn (book : RuleBook) (slotMs retained : Nat) (clock : Clock)
    (events : List GateEvent) :
    let run := (start book slotMs retained clock).after events
    (∀ r, run.gate.stats.inFlight r = liveOn r run.live) ∧
    ∀ (identity : Identity) (draw : Float) (rule : LimitRule) (ceiling : Nat),
      run.gate.clock.failing = false →
      Limiter.resolve run.gate.book identity.candidates = some rule →
      rule.concurrency = some ceiling →
      let r := rule.resource.bind identity.candidates
      (∀ r', (run.gate.enter identity draw).1.reason? = some (.rateLimit r' .concurrency) ↔
        r' = r ∧ ceiling ≤ liveOn r run.live) ∧
      ∀ p, (run.gate.enter identity draw).1.permit? = some p →
        p.resource? = some r ∧ liveOn r (run.step (.enter identity draw)).live ≤ ceiling := by
  intro run
  have hrun : Accounted run.gate.stats run.live := accounted_after book slotMs retained clock events
  refine ⟨hrun.inFlight, fun identity draw rule ceiling hf hrule hceiling => ?_⟩
  dsimp only
  have hlive : (run.step (.enter identity draw)).live =
      run.live ++ (run.gate.enter identity draw).1.permit?.toList := rfl
  rw [hlive, Gate.enter_of_working hf]
  obtain ⟨hdenied, hpermit⟩ :=
    (run.gate.answer_enterAt identity run.gate.clock.now draw).ceiling hrun hrule hceiling
  refine ⟨hdenied, fun p hp => ?_⟩
  obtain ⟨hr, hbelow⟩ := hpermit p hp
  rw [hp]
  refine ⟨hr, ?_⟩
  rw [Option.toList_some, liveOn_append, if_pos hr]
  omega

/-- Two requests for a service, where each service may have one in flight. -/
theorem inFlight_eq_liveOn_crowded :
    let rule : LimitRule := { resource := .serviceDefault, concurrency := some 1 }
    let book := RuleBook.ofChanges [.rateLimit (.upsert rule)]
    let run := (start book 1000 10 { now := 0 }).after [.enter { service := "shop" } 0.5]
    run.gate.stats.inFlight (.service "shop") = 1 ∧
      (run.gate.enter { service := "shop" } 0.5).1.reason? =
        some (.rateLimit (.service "shop") .concurrency) := by
  intro rule book run
  obtain ⟨hin, hceiling⟩ :=
    inFlight_eq_liveOn book 1000 10 { now := 0 } [.enter { service := "shop" } 0.5]
  have hlive : liveOn (.service "shop") run.live = 1 := by decide +kernel
  obtain ⟨hdenied, -⟩ := hceiling { service := "shop" } 0.5 rule 1 rfl rfl rfl
  exact ⟨(hin _).trans hlive, (hdenied _).mpr ⟨by decide +kernel, Nat.le_of_eq hlive.symm⟩⟩

end GateRun
end Floodgate
