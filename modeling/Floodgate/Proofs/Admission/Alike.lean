import Floodgate.Admission.Overflow
import Floodgate.Proofs.Admission.Footprint
import Floodgate.Proofs.Admission.Rules
import Floodgate.Proofs.Stats.Eviction

/-!
# Gates that differ by evictions

Two gates have the same rules, the same breakers and the same clock, and their stores are alike.
Then they decide a request alike. A request asks the statistics for three things: the units in
flight, what has started in the slot of the present, and what a breaker watches. The last two lie in
slots that begin less than the span ago, where the stores have counted the same, if no rule looks
back further than the span. The units are a matter of the permits that are out, and a hypothesis
here.

The two answers are not the same in all. A resource that has been evicted gets a new series, so
leases name other series at the one gate than at the other. `shown` is what is left of an answer
without that. A permit that comes back goes to the series that it names, and what it does else is
the same at both.

A breaker looks up to the end of the present slot, and sums up latencies on the way. Where these sums
leave the words, a build with checks gives no answer, and it gives none at either gate
(`Gate.Alike.overflowAt?_eq`). So whatever an answer is compared for here comes of sums that are words.
-/

set_option autoImplicit false

namespace Floodgate

/-! ## What is shown of an answer -/

/-- A lease, whichever of the successive series of its resource it is on. -/
def Lease.shown (l : Lease) : Lease := { l with series := { l.series with number := 0 } }

def LimitDecision.shown : LimitDecision → LimitDecision
  | allowed lease => allowed lease.shown
  | denied resource axis rule => denied resource axis rule

def Tracked.shown (t : Tracked) : Tracked := { t with lease := t.lease.shown }

def Permit.shown : Permit → Permit
  | untracked => untracked
  | tracked t => tracked t.shown

def Admission.shown : Admission → Admission
  | permit p => permit p.shown
  | deny d => deny d

theorem Lease.shown_eq_mk {r : Resource} {rule : Option LimitRule} {hs ht : Handle Resource}
    (hkey : hs.key = ht.key) :
    ({ resource := r, rule, series := hs } : Lease).shown =
      ({ resource := r, rule, series := ht } : Lease).shown := by
  simp only [shown, hkey]

theorem LimitDecision.shown_eq_allowed {d : LimitDecision} {lease : Lease}
    (h : (allowed lease).shown = d.shown) :
    ∃ lease', d = allowed lease' ∧ lease.shown = lease'.shown := by
  cases d with
  | allowed lease' => exact ⟨lease', rfl, LimitDecision.allowed.inj h⟩
  | denied => cases h

theorem LimitDecision.shown_eq_denied {d : LimitDecision} {resource : Resource} {axis : LimitAxis}
    {rule : LimitRule} (h : (denied resource axis rule).shown = d.shown) :
    d = denied resource axis rule := by
  cases d with
  | allowed => cases h
  | denied => exact h.symm

open StatStore (Alike)

variable {g : Grid} {span now : Nat} {s s' t t' : StatStore}

/-! ## The limiter -/

namespace Limiter

variable {rule : LimitRule} {resource : Resource} {d d' : LimitDecision}

theorem alike_start (h : s.Alike g span now t) (rule : LimitRule) (resource : Resource) :
    (start rule s resource now).1 = (start rule t resource now).1 ∧
      (start rule s resource now).2.Alike g span now (start rule t resource now).2 := by
  unfold start
  cases rule.qps with
  | some qps =>
    dsimp only
    rw [h.grid.1, h.grid.2]
    exact h.tryStart resource (slotBudget g qps)
  | none => exact ⟨rfl, h.incr resource .started⟩

theorem alike_of_start {room room' : Bool} (h : s.Alike g span now t)
    (asked : start rule s resource now = (room, s'))
    (asked' : start rule t resource now = (room', t')) : room = room' ∧ s'.Alike g span now t' := by
  have hstart := alike_start h rule resource
  rwa [asked, asked'] at hstart

/-- The ceiling of concurrency counts units, and those agree: no series is dropped while it has any.
-/
theorem alike_of_acquire {limit : Option Nat} {hs ht : Option (Handle Resource)}
    (h : s.Alike g span now t) (hin : s.inFlight resource = t.inFlight resource)
    (acquired : s.acquire resource limit now = (hs, s'))
    (acquired' : t.acquire resource limit now = (ht, t')) :
    hs.isNone = ht.isNone ∧ s'.Alike g span now t' := by
  have hacquire := h.acquire resource limit
  rw [acquired, acquired'] at hacquire
  refine ⟨?_, hacquire⟩
  rw [← any_of_acquire acquired, ← any_of_acquire acquired', hin]

theorem Held.alike (hs : Held rule s resource now d s') (ht : Held rule t resource now d' t')
    (h : s.Alike g span now t) (hin : s.inFlight resource = t.inFlight resource) :
    d.shown = d'.shown ∧ s'.Alike g span now t' := by
  cases hs with
  | crowded acquired =>
    cases ht with
    | crowded acquired' =>
      exact ⟨rfl, (alike_of_acquire h hin acquired acquired').2.incr resource .blockedByLimiter⟩
    | allowed acquired' | spent acquired' =>
      cases (alike_of_acquire h hin acquired acquired').1
  | allowed acquired room =>
    cases ht with
    | crowded acquired' => cases (alike_of_acquire h hin acquired acquired').1
    | allowed acquired' room' =>
      have hleased := (alike_of_acquire h hin acquired acquired').2
      have hheld := (takesUnit_of_start acquired room).held
      have hheld' := (takesUnit_of_start acquired' room').held
      refine ⟨congrArg LimitDecision.allowed (Lease.shown_eq_mk ?_),
        (alike_of_start hleased room room').2.observe hheld hheld'⟩
      rw [Roster.key_of_handle? hheld, Roster.key_of_handle? hheld']
    | spent acquired' room' =>
      cases (alike_of_start (alike_of_acquire h hin acquired acquired').2 room room').1
  | spent acquired room =>
    cases ht with
    | crowded acquired' => cases (alike_of_acquire h hin acquired acquired').1
    | allowed acquired' room' =>
      cases (alike_of_start (alike_of_acquire h hin acquired acquired').2 room room').1
    | spent acquired' room' =>
      have hasked := alike_of_start (alike_of_acquire h hin acquired acquired').2 room room'
      exact ⟨rfl, (hasked.2.release _ _).incr resource .blockedByLimiter⟩

theorem alike_permitUnlimited (h : s.Alike g span now t) :
    (permitUnlimited s now).1.shown = (permitUnlimited t now).1.shown ∧
      (permitUnlimited s now).2.Alike g span now (permitUnlimited t now).2 := by
  have hheld (s : StatStore) := ((s.takesUnit_acquireUnbounded .global now).trans
    (StatStore.sameUnits_incr _ .global .started now)).held
  refine ⟨congrArg LimitDecision.allowed (Lease.shown_eq_mk ?_),
    ((h.acquireUnbounded .global).incr .global .started).observe (hheld s) (hheld t)⟩
  exact (Roster.key_of_handle? (hheld s)).trans (Roster.key_of_handle? (hheld t)).symm

/-- **The limiter decides the same** where the units agree and the stores are alike. -/
theorem alike_permit (h : s.Alike g span now t) (hin : ∀ r, s.inFlight r = t.inFlight r)
    (book : RuleBook) (candidates : List Resource) :
    (permit book s candidates now).1.shown = (permit book t candidates now).1.shown ∧
      (permit book s candidates now).2.Alike g span now (permit book t candidates now).2 := by
  unfold permit
  cases resolve book candidates with
  | none => exact alike_permitUnlimited h
  | some rule =>
    exact (held_permitUnder rule s candidates now).alike (held_permitUnder rule t candidates now) h
      (hin _)

end Limiter

/-! ## The breakers -/

theorem DegradeRule.trips_congr (rule : DegradeRule) {w w' : Window} (h : w.tally = w'.tally) :
    rule.trips w = rule.trips w' := by
  unfold trips Window.errorRatio
  rw [h]

theorem Phase.evaluate_congr (p : Phase) (rule : DegradeRule) {w w' : Window}
    (h : w.tally = w'.tally) (now : Nat) (draw : Float) :
    p.evaluate rule w now draw = p.evaluate rule w' now draw := by
  unfold evaluate
  rw [rule.trips_congr h]

namespace Breaker

variable {b : Breaker}

/-- **A breaker forms its sums in the words at both stores or at neither.** Its window begins less than
the span ago, for it ends ahead of the present and is no longer than the rule looks back. -/
theorem overflow?_eq (h : s.Alike g span now t) (hspan : b.rule.monitorMs ≤ span) :
    b.overflow? s now = b.overflow? t now := by
  unfold overflow?
  split
  · have hnow := g.lt_floor_add now
    rw [h.grid.1, h.grid.2]
    cases hadd : Word.add? (g.floor now) g.slotMs with
    | none => rfl
    | some stop =>
      obtain ⟨hstop, rfl⟩ := Word.add?_eq_some_iff.mp hadd
      dsimp only
      rw [h.overflows_window b.resource (by omega) hstop]
  · rfl

theorem tally_watched (h : s.Alike g span now t) (hspan : b.rule.monitorMs ≤ span)
    (hfits : b.overflow? s now = none) : (b.watched s now).tally = (b.watched t now).tally := by
  unfold watched
  split
  · rename_i hclosed
    have hnow := g.lt_floor_add now
    have hstop := slotEnd_lt_of_overflow? hclosed hfits
    rw [b.monitorWindow_eq s _ now hstop, b.monitorWindow_eq t _ now (by rwa [h.grid.2, ← h.grid.1]),
      h.grid.1, h.grid.2]
    rw [h.grid.1] at hstop
    exact h.tally_window b.resource (by omega) hstop
  · rfl

theorem alike_settle (h : s.Alike g span now t) (b : Breaker) {d : Transition}
    (hsince : ∀ next, d.next = some next → next.since = now) :
    (b.settle d now s).1 = (b.settle d now t).1 ∧
      (b.settle d now s).2.Alike g span now (b.settle d now t).2 := by
  unfold settle
  cases hnext : d.next with
  | none => exact ⟨rfl, h.recordState _ _⟩
  | some next =>
    have hentered := h.recordState b.resource next.state
    refine ⟨rfl, StatStore.Alike.recordState ?_ _ _⟩
    dsimp only [enter]
    rw [hsince next hnext]
    exact hentered

/-- A breaker decides the same, if it looks back no further than the span. -/
theorem alike_permit (h : s.Alike g span now t) (hspan : b.rule.monitorMs ≤ span)
    (hfits : b.overflow? s now = none) (draw : Float) :
    (b.permit s now draw).1 = (b.permit t now draw).1 ∧
      (b.permit s now draw).2.1 = (b.permit t now draw).2.1 ∧
      (b.permit s now draw).2.2.Alike g span now (b.permit t now draw).2.2 := by
  have hsame := b.phase.evaluate_congr b.rule (tally_watched h hspan hfits) now draw
  obtain ⟨hdecided, hstats⟩ := alike_settle h b
    (d := b.phase.evaluate b.rule (b.watched t now) now draw) fun next hnext =>
      (Phase.evaluate_next hnext).1
  rw [permit_eq_settle, permit_eq_settle, hsame]
  dsimp only
  exact ⟨congrArg Prod.fst hdecided, congrArg Prod.snd hdecided, hstats⟩

theorem alike_onProbeOutcome (h : s.Alike g span now t) (b : Breaker) (success : Bool) :
    (b.onProbeOutcome success s now).1 = (b.onProbeOutcome success t now).1 ∧
      (b.onProbeOutcome success s now).2.Alike g span now (b.onProbeOutcome success t now).2 := by
  unfold onProbeOutcome
  cases hnext : b.phase.afterProbe? success now with
  | none => exact ⟨rfl, h⟩
  | some next =>
    refine ⟨rfl, ?_⟩
    dsimp only [enter]
    rw [(Phase.afterProbe?_next hnext).1]
    exact h.recordState b.resource next.state

end Breaker

namespace RuleBook

variable {book : RuleBook}

/-- No enabled degrade rule looks back further than a span. -/
def LooksBackWithin (book : RuleBook) (span : Nat) : Prop :=
  ∀ e ∈ book.degrades.toList, e.rule.enabled = true → e.rule.monitorMs ≤ span

theorem LooksBackWithin.of_enabled? (h : book.LooksBackWithin span) (hb : book.Consistent)
    {r : Resource} {e : Edition DegradeRule} (he : book.degrades.enabled? r = some e) :
    e.rule.monitorMs ≤ span := by
  obtain rfl := hb.degrades.keyed_enabled he
  obtain ⟨hmem, henabled⟩ := (RuleTable.mem_toList_enabled_iff hb.degrades e).mpr he
  exact h e hmem henabled

theorem LooksBackWithin.monitorMs_le (h : book.LooksBackWithin span) (hb : book.Consistent)
    {r : Resource} {e : Edition DegradeRule} (he : book.inForce? r = some e) :
    e.rule.monitorMs ≤ span := by
  rcases inForce?_eq_some_iff.mp he with hown | ⟨-, -, hdefault⟩
  · exact h.of_enabled? hb hown
  · exact h.of_enabled? hb hdefault

end RuleBook

namespace Registry

variable {b : Breaker} {book : RuleBook} {r : Registry}

theorem alike_permitBy (h : s.Alike g span now t) (hspan : b.rule.monitorMs ≤ span)
    (hfits : b.overflow? s now = none) (r : Registry) (hd : Handle Resource) (draw : Float) :
    (r.permitBy hd b s now draw).1 = (r.permitBy hd b t now draw).1 ∧
      (r.permitBy hd b s now draw).2.1 = (r.permitBy hd b t now draw).2.1 ∧
      (r.permitBy hd b s now draw).2.2.Alike g span now (r.permitBy hd b t now draw).2.2 := by
  have hpermit := Breaker.alike_permit h hspan hfits draw
  unfold permitBy
  rcases hs : b.permit s now draw with ⟨d, b₁, s₁⟩
  rcases ht : b.permit t now draw with ⟨d', b₁', t₁⟩
  rw [hs, ht] at hpermit
  obtain ⟨rfl, rfl, hstats⟩ := hpermit
  cases d with
  | permit => exact ⟨rfl, rfl, hstats⟩
  | probe => exact ⟨rfl, rfl, hstats⟩
  | reject => exact ⟨rfl, rfl, hstats.incr _ .blockedByBreaker⟩

/-- A request that no rule applies to asks no breaker, and so no sum is formed. -/
theorem overflow?_of_none {candidates : List Resource}
    (hnone : book.degrades.firstEnabled? candidates = none) (r : Registry) (stats : StatStore) :
    r.overflow? book stats candidates now = none := by
  rw [overflow?, lookup, hnone]
  rfl

/-- A request that a rule applies to asks the breaker at the resource that it is bound to. -/
theorem overflow?_of_some {candidates : List Resource} {e : Edition DegradeRule}
    {hd : Handle Resource} (he : book.degrades.firstEnabled? candidates = some e)
    (hhandle : (r.withOne (e.rule.resource.bind candidates) e).handle?
      (e.rule.resource.bind candidates) = some hd)
    (hheld : (r.lookup book candidates).2.held? hd = some b) (stats : StatStore) :
    r.overflow? book stats candidates now = b.overflow? stats now := by
  have hasked : (r.lookup book candidates).1 = some hd := by rw [lookup_eq he hhandle]
  simp only [overflow?, hasked, Option.bind_some, hheld]

section Permit

variable (h : s.Alike g span now t) (hr : r.Follows book) (hb : book.Consistent)
  (hspan : book.LooksBackWithin span)

include h hr hb hspan

/-- The breakers form their sums in the words at both stores or at neither. -/
theorem overflow?_eq (i : Identity) :
    r.overflow? book s i.candidates now = r.overflow? book t i.candidates now := by
  rcases r.permit_cases book s i.candidates now 0 with
    ⟨hnone, -⟩ | ⟨e, hd, b, he, hhandle, -, hheld, hview, -⟩
  · rw [overflow?_of_none hnone, overflow?_of_none hnone]
  · rw [overflow?_of_some he hhandle hheld, overflow?_of_some he hhandle hheld]
    exact Breaker.overflow?_eq h (hspan.monitorMs_le hb ((hr.lookup hb i).ruled hview).rule)

/-- **The breakers decide the same**, if no rule looks back further than the span, and if all sums are
words. -/
theorem alike_permit (i : Identity) (hfits : r.overflow? book s i.candidates now = none)
    (draw : Float) :
    let asked := r.permit book s i.candidates now draw
    let asked' := r.permit book t i.candidates now draw
    asked.1 = asked'.1 ∧ asked.2.1 = asked'.2.1 ∧ asked.2.2.Alike g span now asked'.2.2 := by
  intro asked asked'
  rcases r.permit_cases book s i.candidates now draw with
    ⟨hnone, hs⟩ | ⟨e, hd, b, he, hhandle, -, hheld, hview, hs⟩
  · rcases r.permit_cases book t i.candidates now draw with ⟨-, ht⟩ | ⟨e', -, -, he', -⟩
    · rw [show asked = _ from hs, show asked' = _ from ht]
      exact ⟨rfl, rfl, h⟩
    · rw [hnone] at he'
      cases he'
  · rcases r.permit_cases book t i.candidates now draw with
      ⟨hnone, -⟩ | ⟨e', hd', b', he', hhandle', -, hheld', -, ht⟩
    · rw [hnone] at he
      cases he
    · cases he.symm.trans he'
      cases hhandle.symm.trans hhandle'
      cases hheld.symm.trans hheld'
      rw [overflow?_of_some he hhandle hheld] at hfits
      rw [show asked = _ from hs, show asked' = _ from ht]
      exact alike_permitBy h (hspan.monitorMs_le hb ((hr.lookup hb i).ruled hview).rule) hfits _ hd
        draw

end Permit

theorem alike_onProbeOutcome (h : s.Alike g span now t) (r : Registry) (hd : Handle Resource)
    (success : Bool) :
    (r.onProbeOutcome hd success s now).1 = (r.onProbeOutcome hd success t now).1 ∧
      (r.onProbeOutcome hd success s now).2.Alike g span now
        (r.onProbeOutcome hd success t now).2 := by
  unfold onProbeOutcome
  cases r.held? hd with
  | none => exact ⟨rfl, h⟩
  | some b =>
    obtain ⟨hb, hstats⟩ := Breaker.alike_onProbeOutcome h b success
    dsimp only
    rw [hb]
    exact ⟨rfl, hstats⟩

end Registry

/-! ## The gate -/

namespace Gate

/-- Two gates differ by their statistics alone, and these are alike. -/
structure Alike (g : Grid) (span now : Nat) (gate gate' : Gate) : Prop where
  book : gate.book = gate'.book
  breakers : gate.breakers = gate'.breakers
  clock : gate.clock = gate'.clock
  stats : gate.stats.Alike g span now gate'.stats

variable {gate gate' : Gate}

theorem Alike.enterLeased (h : gate.Alike g span now gate') (ho : gate.Ordered)
    (hspan : gate.book.LooksBackWithin span) {lease lease' : Lease}
    (hlease : lease.shown = lease'.shown) (identity : Identity)
    (hfits : gate.breakers.overflow? gate.book gate.stats identity.candidates now = none)
    (draw : Float) :
    let answered := gate.enterLeased lease identity.candidates now draw
    let answered' := gate'.enterLeased lease' identity.candidates now draw
    answered.1.shown = answered'.1.shown ∧ answered.2.Alike g span now answered'.2 := by
  obtain ⟨book, s, breakers, clock⟩ := gate
  obtain ⟨book', t, breakers', clock'⟩ := gate'
  obtain ⟨rfl, rfl, rfl, hstats⟩ := h
  have hverdict := Registry.alike_permit hstats ho.breakers ho.book hspan identity hfits draw
  unfold Gate.enterLeased
  dsimp only at hverdict ⊢
  rcases hs : breakers.permit book s identity.candidates now draw with ⟨v, r, s'⟩
  rcases ht : breakers.permit book t identity.candidates now draw with ⟨v', r', t'⟩
  rw [hs, ht] at hverdict
  obtain ⟨rfl, rfl, hasked⟩ := hverdict
  cases v with
  | unrestricted =>
    refine ⟨?_, rfl, rfl, rfl, hasked⟩
    dsimp only [Admission.shown, Permit.shown, Tracked.shown]
    rw [hlease]
  | permit hd probe =>
    refine ⟨?_, rfl, rfl, rfl, hasked⟩
    dsimp only [Admission.shown, Permit.shown, Tracked.shown]
    rw [hlease]
  | reject hd state => exact ⟨rfl, rfl, rfl, rfl, hasked.release _ _⟩

section Enter

variable (h : gate.Alike g span now gate') (ho : gate.Ordered)
  (hin : ∀ r, gate.stats.inFlight r = gate'.stats.inFlight r)
  (hspan : gate.book.LooksBackWithin span)

include h ho hin hspan

/-- **A request remains without an answer at both gates or at neither**, and for the same sum. -/
theorem Alike.overflowAt?_eq (identity : Identity) :
    gate.overflowAt? identity now = gate'.overflowAt? identity now := by
  obtain ⟨book, s, breakers, clock⟩ := gate
  obtain ⟨book', t, breakers', clock'⟩ := gate'
  obtain ⟨rfl, rfl, rfl, hstats⟩ := h
  have hdecided := Limiter.alike_permit hstats hin book identity.candidates
  unfold overflowAt?
  dsimp only at hdecided ⊢
  rcases hs : Limiter.permit book s identity.candidates now with ⟨d, s'⟩
  rcases ht : Limiter.permit book t identity.candidates now with ⟨d', t'⟩
  rw [hs, ht] at hdecided
  obtain ⟨hd, hleased⟩ := hdecided
  cases d with
  | allowed lease =>
    obtain ⟨lease', rfl, -⟩ := LimitDecision.shown_eq_allowed hd
    exact Registry.overflow?_eq hleased ho.breakers ho.book hspan identity
  | denied resource axis rule =>
    obtain rfl := LimitDecision.shown_eq_denied hd
    rfl

/-- **The gate answers the same**, but for the series that a lease is on. -/
theorem Alike.enterAt (identity : Identity) (hfits : gate.overflowAt? identity now = none)
    (draw : Float) :
    (gate.enterAt identity now draw).1.shown = (gate'.enterAt identity now draw).1.shown ∧
      (gate.enterAt identity now draw).2.Alike g span now (gate'.enterAt identity now draw).2 := by
  obtain ⟨book, s, breakers, clock⟩ := gate
  obtain ⟨book', t, breakers', clock'⟩ := gate'
  obtain ⟨rfl, rfl, rfl, hstats⟩ := h
  have hdecided := Limiter.alike_permit hstats hin book identity.candidates
  unfold overflowAt? at hfits
  unfold Gate.enterAt
  dsimp only at hdecided hfits ⊢
  rcases hs : Limiter.permit book s identity.candidates now with ⟨d, s'⟩
  rcases ht : Limiter.permit book t identity.candidates now with ⟨d', t'⟩
  rw [hs, ht] at hdecided
  rw [hs] at hfits
  obtain ⟨hd, hleased⟩ := hdecided
  cases d with
  | allowed lease =>
    obtain ⟨lease', rfl, hlease⟩ := LimitDecision.shown_eq_allowed hd
    have hgate : Gate.Alike g span now { book, stats := s', breakers, clock }
        { book, stats := t', breakers, clock } := ⟨rfl, rfl, rfl, hleased⟩
    have hordered : Gate.Ordered { book, stats := s', breakers, clock } := ho.congr rfl rfl
    exact hgate.enterLeased hordered hspan hlease identity hfits draw
  | denied resource axis rule =>
    obtain rfl := LimitDecision.shown_eq_denied hd
    exact ⟨rfl, rfl, rfl, rfl, hleased⟩

end Enter

theorem alike_recordOutcome (h : s.Alike g span now t) (r : Resource) (failed : Bool)
    (latency : Nat) :
    (recordOutcome s r failed latency now).Alike g span now
      (recordOutcome t r failed latency now) := by
  unfold recordOutcome
  cases failed with
  | false => exact h.incr_recordLatency r .completed latency
  | true => exact (h.incr r .completed).incr_recordLatency r .error latency

/-- A permit gives back to whichever series it took from. -/
theorem Alike.counted (h : gate.Alike g span now gate') (u : Tracked) (hd : Handle Resource)
    (success : Option Bool) :
    (gate.counted u success now).Alike g span now
      (gate'.counted { u with lease := { u.lease with series := hd } } success now) := by
  have hlease := alike_recordOutcome (h.stats.release u.lease.series hd) u.lease.resource
    (decide (success = some false)) (now - u.admittedAt)
  unfold Gate.counted
  cases u.breaker with
  | none => exact hlease
  | some hb =>
    dsimp only
    split
    · exact hlease
    · exact alike_recordOutcome hlease hb.key _ _

theorem Alike.finishAt (h : gate.Alike g span now gate') (u : Tracked) (hd : Handle Resource)
    (success : Option Bool) :
    (gate.finishAt u success now).Alike g span now
      (gate'.finishAt { u with lease := { u.lease with series := hd } } success now) := by
  have hcounted := h.counted u hd success
  have hprobed : ({ u with lease := { u.lease with series := hd } } : Tracked).probed? =
      u.probed? := rfl
  rw [finishAt_eq, finishAt_eq, hprobed]
  cases u.probed? with
  | none => exact ⟨h.book, h.breakers, h.clock, hcounted⟩
  | some hb =>
    obtain ⟨htold, hstats⟩ :=
      Registry.alike_onProbeOutcome hcounted gate.breakers hb (success.getD false)
    dsimp only
    rw [h.breakers] at htold hstats ⊢
    exact ⟨h.book, htold, h.clock, hstats⟩

theorem Alike.applyRule (h : gate.Alike g span now gate') (raw : RawRule) :
    (gate.applyRule raw).2.Alike g span now (gate'.applyRule raw).2 := by
  unfold Gate.applyRule
  dsimp only
  rw [h.book, h.breakers]
  exact ⟨rfl, rfl, h.clock, h.stats⟩

end Gate

/-- What is shown of a permit is all of it but the series of its lease. -/
theorem Tracked.eq_of_shown {u u' : Tracked} (h : u.shown = u'.shown) :
    u' = { u with lease := { u.lease with series := u'.lease.series } } := by
  obtain ⟨⟨resource, rule, series⟩, breaker, probe, admittedAt⟩ := u
  obtain ⟨⟨resource', rule', series'⟩, breaker', probe', admittedAt'⟩ := u'
  simp only [shown, Lease.shown, mk.injEq, Lease.mk.injEq] at h
  obtain ⟨⟨rfl, rfl, -⟩, rfl, rfl, rfl⟩ := h
  rfl

theorem Gate.Alike.finish {gate gate' : Gate} (h : gate.Alike g span now gate')
    (hworking : gate.clock.failing = false) (hnow : gate.clock.now = now) {p p' : Permit}
    (hp : p.shown = p'.shown) (success : Option Bool) :
    (gate.finish p success).Alike g span now (gate'.finish p' success) := by
  have hworking' : gate'.clock.failing = false := h.clock ▸ hworking
  cases p with
  | untracked =>
    cases p' with
    | untracked => exact h
    | tracked u' => cases hp
  | tracked u =>
    cases p' with
    | untracked => cases hp
    | tracked u' =>
      rw [finish_of_working hworking, finish_of_working hworking', ← h.clock, hnow,
        Tracked.eq_of_shown (Permit.tracked.inj hp)]
      exact h.finishAt u u'.lease.series success

end Floodgate
