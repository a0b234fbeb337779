import Floodgate.Proofs.Breaker.Fingerprint

/-!
# Counting rejections

A breaker counts the requests it has turned away since its last transition. It keeps the count beside
the fingerprint of the phase it was taken in and takes it for zero when the phase has another
fingerprint. So the count is right unless two phases share a fingerprint, and the only one that
matters is the phase in which a request was rejected last before the transition: its count is
carried over into the present phase if it has the fingerprint of that.

`RejectHistory` keeps, beside a run of calls, how many requests were answered with a rejection since
the last transition, and that earlier phase. `rejectCount_eq_iff` says that the count of the breaker
is the number of the history exactly if the two phases have different fingerprints, whatever the
calls. With times that do not run backwards no phase comes again (`Phase.Precedes`), so two phases of
one run that share a fingerprint lie hours apart.
-/

set_option autoImplicit false

namespace Floodgate

/-! ## Phases in their order -/

/-- How far a breaker can still come within one millisecond. An open breaker comes no farther, since
a break takes time. -/
def BreakerState.rank : BreakerState → Nat
  | resumeGradually | resumeDetectively => 0
  | closed => 1
  | «open» => 2

namespace Phase

variable {p q : Phase}

/-- A phase may come before another in a run in which time does not run backwards. -/
def Precedes (p q : Phase) : Prop :=
  p.since < q.since ∨ p.since = q.since ∧ p.state.rank < q.state.rank

theorem Precedes.trans {q' : Phase} (h : p.Precedes q) (h' : q.Precedes q') : p.Precedes q' := by
  unfold Precedes at *
  omega

theorem Precedes.since_le (h : p.Precedes q) : p.since ≤ q.since := by
  unfold Precedes at h
  omega

theorem Precedes.ne (h : p.Precedes q) : p ≠ q := by
  rintro rfl
  unfold Precedes at h
  omega

/-- A request leads on to a later phase. Either time has passed or the next state has a higher rank,
so that no phase comes back within a moment. -/
theorem precedes_of_evaluate {next : Phase} {rule : DegradeRule} {w : Window} {now : Nat}
    {draw : Float} (hnow : p.since ≤ now) (h : (p.evaluate rule w now draw).next = some next) :
    p.Precedes next := by
  have hsince := (evaluate_next h).1
  -- in three of the states no time need pass, but the next state is one of a higher rank
  have hlead (hrank : p.state.rank < next.state.rank) : p.Precedes next := by
    unfold Precedes
    omega
  unfold evaluate at h
  cases hs : p.state with
  | closed =>
    rw [hs] at h hlead
    dsimp only at h
    split at h
    · cases h
      exact hlead (by simp [BreakerState.rank])
    · cases h
  | «open» =>
    rw [hs] at h
    dsimp only at h
    split at h
    · cases h
    · -- the break is over, and that took time
      exact Or.inl (by omega)
  | resumeDetectively =>
    rw [hs] at h hlead
    dsimp only at h
    split at h
    · cases h
    · cases h
      exact hlead (by simp [BreakerState.rank])
  | resumeGradually =>
    rw [hs] at h hlead
    dsimp only at h
    split at h
    · split at h
      · cases h
      · cases h
        exact hlead (by simp [BreakerState.rank])
    · cases h
      exact hlead (by simp [BreakerState.rank])

theorem precedes_of_afterProbe? {next : Phase} {success : Bool} {now : Nat} (hnow : p.since ≤ now)
    (h : p.afterProbe? success now = some next) : p.Precedes next := by
  have hsince := (afterProbe?_next h).1
  unfold afterProbe? at h
  split at h
  · rename_i hs
    have hrank : p.state.rank < next.state.rank := by
      cases h
      cases success <;> simp [hs, BreakerState.rank]
    unfold Precedes
    omega
  · cases h

end Phase

/-! ## What one call does to the phase and to the count -/

namespace Breaker

/-- A call at a time that is no earlier than the phase leaves the phase alone or leads on to a later
one, which begins at that time. -/
theorem call_phase_precedes (b : Breaker) {c : BreakerCall} (hc : c.IsTimely)
    (hnow : ∀ now, c.time? = some now → b.phase.since ≤ now) :
    (b.call c).2.phase = b.phase ∨
      c.time? = some (b.call c).2.phase.since ∧ b.phase.Precedes (b.call c).2.phase := by
  -- either way of entering a phase goes through a word, which keeps a timely phase as it is
  have henter {now : Nat} {next : Phase} (htime : c.time? = some now) (hsince : next.since = now)
      (hprecedes : b.phase.Precedes next) (hphase : (b.call c).2.phase = Phase.unpack next.pack) :
      c.time? = some (b.call c).2.phase.since ∧ b.phase.Precedes (b.call c).2.phase := by
    rw [hphase, Phase.unpack_pack (hsince ▸ hc now htime), hsince]
    exact ⟨htime, hprecedes⟩
  cases c with
  | permit stats now draw =>
    have hphase := b.permit_phase stats now draw
    cases h : (b.phase.evaluate b.rule (b.watched stats now) now draw).next with
    | none =>
      rw [h] at hphase
      exact Or.inl hphase
    | some next =>
      rw [h] at hphase
      exact Or.inr (henter rfl (Phase.evaluate_next h).1
        (Phase.precedes_of_evaluate (hnow now rfl) h) hphase)
  | outcome success stats now =>
    have hphase := b.onProbeOutcome_phase success stats now
    cases h : b.phase.afterProbe? success now with
    | none =>
      rw [h] at hphase
      exact Or.inl hphase
    | some next =>
      rw [h] at hphase
      exact Or.inr (henter rfl (Phase.afterProbe?_next h).1
        (Phase.precedes_of_afterProbe? (hnow now rfl) h) hphase)
  | update edition version => exact Or.inl (b.update_phase edition version)

/-- **What a call does to the count**: at first nothing, whatever it does to the phase; and then it
counts a rejection in the phase that it ends in, if it answers with one. -/
theorem call_eq_recordReject (b : Breaker) (c : BreakerCall) :
    ∃ entered : Breaker, entered.phase = (b.call c).2.phase ∧ entered.rejections = b.rejections ∧
      (b.call c).2 = if (b.call c).1 = .decided .reject then entered.recordReject else entered := by
  cases c with
  | permit stats now draw =>
    simp only [call, BreakerAnswer.decided.injEq]
    unfold permit
    generalize b.phase.evaluate b.rule (b.watched stats now) now draw = t
    obtain ⟨d, next⟩ := t
    cases next with
    | none => exact ⟨b, by by_cases hd : d = .reject <;> simp [hd], rfl, rfl⟩
    | some next =>
      exact ⟨(b.enter next stats).1, by by_cases hd : d = .reject <;> simp [hd],
        b.enter_rejections next stats, rfl⟩
  | outcome success stats now =>
    refine ⟨(b.onProbeOutcome success stats now).1, rfl, ?_, (if_neg fun h => by cases h).symm⟩
    unfold onProbeOutcome
    cases b.phase.afterProbe? success now with
    | none => rfl
    | some next => exact b.enter_rejections next stats
  | update edition version =>
    refine ⟨(b.update edition version).2, rfl, ?_, (if_neg fun h => by cases h).symm⟩
    unfold update
    split <;> rfl

theorem rejectCount_recordReject (b : Breaker) :
    b.recordReject.rejectCount = min (b.rejectCount + 1) rejectionLimit := by
  obtain ⟨resource, edition, version, phase, rejections⟩ := b
  simp [rejectCount, recordReject, rejectionsIn]

end Breaker

/-! ## The history of a run -/

/-- What a run of calls has answered with rejections. -/
structure RejectHistory where
  /-- How many requests were rejected since the last transition, that of the transition among
  them. -/
  since : Nat := 0
  /-- The phase in which a request was rejected last before the last transition. -/
  before? : Option Phase := none

namespace RejectHistory

/-- The phase in which a request was rejected last, if the present phase is the one given. -/
def last? (h : RejectHistory) (present : Phase) : Option Phase :=
  if h.since = 0 then h.before? else some present

/-- The history after a transition out of a phase. -/
def leave (h : RejectHistory) (present : Phase) : RejectHistory :=
  { since := 0, before? := h.last? present }

/-- The history after one more rejection. -/
def reject (h : RejectHistory) : RejectHistory := { h with since := h.since + 1 }

/-- The history after one more call. A transition is a change of the state. -/
def afterCall (h : RejectHistory) (b : Breaker) (c : BreakerCall) : RejectHistory :=
  let h := if (b.call c).2.phase.state = b.phase.state then h else h.leave b.phase
  if (b.call c).1 = .decided .reject then h.reject else h

def afterCalls (h : RejectHistory) (b : Breaker) : List BreakerCall → RejectHistory
  | [] => h
  | c :: cs => (h.afterCall b c).afterCalls (b.call c).2 cs

/-- What the count of a breaker has to do with the history. -/
structure Counted (h : RejectHistory) (b : Breaker) : Prop where
  le_limit : b.rejections.count ≤ Breaker.rejectionLimit
  /-- The count is kept for the phase in which a request was rejected last. -/
  kept : ∀ p ∈ h.last? b.phase, b.rejections.fingerprint = p.fingerprint ∧ 0 < b.rejections.count
  none_kept : h.last? b.phase = none → b.rejections.count = 0
  exact : (∀ p ∈ h.before?, p.fingerprint ≠ b.phase.fingerprint) →
    b.rejectCount = min h.since Breaker.rejectionLimit
  carried : ∀ p ∈ h.before?, p.fingerprint = b.phase.fingerprint →
    min (h.since + 1) Breaker.rejectionLimit ≤ b.rejectCount

/-- What of a run is needed to tell its phases apart. -/
structure Ordered (h : RejectHistory) (b : Breaker) : Prop where
  since_lt : b.phase.since < Phase.timeSize
  precedes : ∀ p ∈ h.before?, p.Precedes b.phase

variable {h : RejectHistory} {b b' : Breaker}

theorem Counted.congr (hcounted : h.Counted b) (hphase : b'.phase = b.phase)
    (hrejections : b'.rejections = b.rejections) : h.Counted b' := by
  have hcount : b'.rejectCount = b.rejectCount := by
    simp only [Breaker.rejectCount, Breaker.rejectionsIn, hphase, hrejections]
  obtain ⟨le_limit, kept, none_kept, exact, carried⟩ := hcounted
  constructor <;> simpa only [hphase, hrejections, hcount]

theorem counted_new (r : Resource) (e : Edition DegradeRule) :
    ({} : RejectHistory).Counted (Breaker.new r e) where
  le_limit := Nat.zero_le _
  kept p hp := by cases hp
  none_kept _ := rfl
  exact _ := ite_self 0
  carried p hp := by cases hp

/-- A transition leaves the count where it is, and it is taken for that of the new phase if the
fingerprint says so. -/
theorem Counted.leave (hcounted : h.Counted b) (next : Phase) :
    (h.leave b.phase).Counted { b with phase := next } where
  le_limit := hcounted.le_limit
  kept := hcounted.kept
  none_kept := hcounted.none_kept
  exact hno := by
    have hzero : (h.leave b.phase).since = 0 := rfl
    rw [hzero, Nat.zero_min]
    simp only [Breaker.rejectCount, Breaker.rejectionsIn]
    cases hlast : h.last? b.phase with
    | none => simp [hcounted.none_kept hlast]
    | some p => rw [(hcounted.kept p hlast).1, if_neg (hno p hlast)]
  carried p hp hsame := by
    obtain ⟨hkept, hpos⟩ := hcounted.kept p hp
    have hcount : ({ b with phase := next } : Breaker).rejectCount = b.rejections.count := by
      simp only [Breaker.rejectCount, Breaker.rejectionsIn]
      rw [if_pos (hkept.trans hsame)]
    have hzero : (h.leave b.phase).since = 0 := rfl
    rw [hcount, hzero]
    omega

theorem Counted.reject (hcounted : h.Counted b) : h.reject.Counted b.recordReject := by
  have hlimit : 0 < Breaker.rejectionLimit := by decide
  have hphase := b.recordReject_phase
  have hcount := b.rejectCount_recordReject
  have hkept : b.recordReject.rejections.fingerprint = b.phase.fingerprint ∧
      b.recordReject.rejections.count = min (b.rejectCount + 1) Breaker.rejectionLimit :=
    ⟨rfl, rfl⟩
  have hsince : h.reject.since = h.since + 1 := rfl
  have hmin (n limit : Nat) : min (min n limit + 1) limit = min (n + 1) limit := by omega
  -- from here on the new breaker is known by these facts alone
  generalize b.recordReject = b' at *
  have hlast : h.reject.last? b'.phase = some b.phase := congrArg some hphase
  constructor
  · omega
  · intro p hp
    rw [hlast] at hp
    cases hp
    exact ⟨hkept.1, by omega⟩
  · intro hnone
    rw [hlast] at hnone
    cases hnone
  · intro hno
    rw [hphase] at hno
    rw [hcount, hcounted.exact hno, hsince]
    exact hmin h.since _
  · intro p hp hsame
    rw [hcount, hsince, ← hmin (h.since + 1)]
    exact Nat.le_min.mpr ⟨Nat.le_trans (Nat.min_le_left _ _)
      (Nat.succ_le_succ (hcounted.carried p hp (hphase ▸ hsame))), Nat.min_le_right _ _⟩

/-- **A call keeps the count in agreement with the history.** It may enter a phase first and reject
in that phase afterwards. -/
theorem Counted.afterCall (hcounted : h.Counted b) (c : BreakerCall) :
    (h.afterCall b c).Counted (b.call c).2 := by
  obtain ⟨entered, hphase, hrejections, heq⟩ := b.call_eq_recordReject c
  -- first the phase changes, if it does, and then the rejection is counted, if there is one
  have hmoved : (if (b.call c).2.phase.state = b.phase.state then h else h.leave b.phase).Counted
      { b with phase := (b.call c).2.phase } := by
    rcases b.call_phase_cases c with hsame | ⟨next, -, hstate, hnext⟩
    · rw [hsame, if_pos rfl]
      exact hcounted
    · rw [if_neg (by rw [hnext, Phase.unpack_pack_state]; exact hstate)]
      exact hcounted.leave _
  unfold RejectHistory.afterCall
  by_cases hreject : (b.call c).1 = .decided .reject
  · rw [if_pos hreject] at heq ⊢
    exact heq ▸ (hmoved.congr hphase hrejections).reject
  · rw [if_neg hreject] at heq ⊢
    exact heq ▸ hmoved.congr hphase hrejections

theorem last?_precedes {next : Phase} (hordered : h.Ordered b) (hnext : b.phase.Precedes next) :
    ∀ p ∈ h.last? b.phase, p.Precedes next := by
  intro p hp
  unfold last? at hp
  split at hp
  · exact (hordered.precedes p hp).trans hnext
  · cases hp
    exact hnext

theorem Ordered.afterCall (hordered : h.Ordered b) {c : BreakerCall} (hc : c.IsTimely)
    (hnow : ∀ now, c.time? = some now → b.phase.since ≤ now) :
    (h.afterCall b c).Ordered (b.call c).2 := by
  have hbefore (h' : RejectHistory) (hp : ∀ p ∈ h'.before?, p.Precedes (b.call c).2.phase) :
      ∀ p ∈ (if (b.call c).1 = .decided .reject then h'.reject else h').before?,
        p.Precedes (b.call c).2.phase := by
    split <;> exact hp
  rcases b.call_phase_precedes hc hnow with hsame | ⟨htime, hprecedes⟩
  · refine ⟨hsame ▸ hordered.since_lt, hbefore _ ?_⟩
    rw [hsame, if_pos rfl]
    exact hordered.precedes
  · refine ⟨hc _ htime, hbefore _ ?_⟩
    split
    · exact fun p hp => (hordered.precedes p hp).trans hprecedes
    · exact last?_precedes hordered hprecedes

/-- **A run keeps the count in agreement with the history, and its phases in order.** -/
theorem counted_and_ordered_afterCalls (cs : List BreakerCall) :
    ∀ {h : RejectHistory} {b : Breaker}, h.Counted b → h.Ordered b →
      (∀ c ∈ cs, c.IsTimely) → (cs.filterMap BreakerCall.time?).Pairwise (· ≤ ·) →
      (∀ t ∈ cs.filterMap BreakerCall.time?, b.phase.since ≤ t) →
      (h.afterCalls b cs).Counted (b.afterCalls cs) ∧
        (h.afterCalls b cs).Ordered (b.afterCalls cs) := by
  -- from the front: what is later than the time of a call is later than the phase that begins then
  induction cs with
  | nil => exact fun hcounted hordered _ _ _ => ⟨hcounted, hordered⟩
  | cons c cs ih =>
    intro h b hcounted hordered htimely hsorted hlater
    have hsplit : (c :: cs).filterMap BreakerCall.time? =
        c.time?.toList ++ cs.filterMap BreakerCall.time? := by
      cases htime : c.time? <;> simp [htime]
    rw [hsplit] at hsorted hlater
    obtain ⟨-, hsorted', hafter⟩ := List.pairwise_append.mp hsorted
    have hc := htimely c List.mem_cons_self
    have hnow : ∀ now, c.time? = some now → b.phase.since ≤ now := fun now htime =>
      hlater now (by simp [htime])
    refine ih (hcounted.afterCall c) (hordered.afterCall hc hnow)
      (fun c' hc' => htimely c' (List.mem_cons_of_mem _ hc')) hsorted' fun t ht => ?_
    rcases b.call_phase_precedes hc hnow with hsame | ⟨htime, -⟩
    · rw [hsame]
      exact hlater t (List.mem_append_right _ ht)
    · exact hafter _ (by simp [htime]) t ht

end RejectHistory

namespace Breaker

/-- What a run of calls has answered with rejections, from the first call on. -/
def rejectHistory (b : Breaker) (cs : List BreakerCall) : RejectHistory :=
  ({} : RejectHistory).afterCalls b cs

/-- **When the count of rejections is right**: after any calls at times that do not run backwards, a
breaker reports the number of requests that it rejected since its last transition, that of the
transition among them, exactly if the phase in which it rejected a request last before that
transition has another fingerprint than the present one, or the number is past the limit. Two phases
of a run that share a fingerprint lie `2 ^ 24` milliseconds apart. -/
theorem rejectCount_eq_iff (r : Resource) (e : Edition DegradeRule) (cs : List BreakerCall)
    (htimely : ∀ c ∈ cs, c.IsTimely)
    (hsorted : (cs.filterMap BreakerCall.time?).Pairwise (· ≤ ·)) :
    let b := (Breaker.new r e).afterCalls cs
    let history := (Breaker.new r e).rejectHistory cs
    (b.rejectCount = min history.since rejectionLimit ↔
      rejectionLimit ≤ history.since ∨
        ∀ p ∈ history.before?, p.fingerprint ≠ b.phase.fingerprint) ∧
    ∀ p ∈ history.before?, p.fingerprint = b.phase.fingerprint →
      p.since + Phase.fingerprintGap ≤ b.phase.since := by
  intro b history
  obtain ⟨hcounted, hordered⟩ : history.Counted b ∧ history.Ordered b :=
    RejectHistory.counted_and_ordered_afterCalls cs (RejectHistory.counted_new r e)
      ⟨Nat.zero_lt_succ _, fun p hp => by cases hp⟩ htimely hsorted fun t _ => Nat.zero_le t
  refine ⟨?_, fun p hp hsame => ?_⟩
  · have hle : b.rejectCount ≤ rejectionLimit := by
      have := hcounted.le_limit
      unfold rejectCount rejectionsIn
      split <;> omega
    -- if the phase before shares the fingerprint, its rejections are counted in and the count is
    -- too high
    by_cases hno : ∀ p ∈ history.before?, p.fingerprint ≠ b.phase.fingerprint
    · exact iff_of_true (hcounted.exact hno) (Or.inr hno)
    · obtain ⟨p, hp, hsame⟩ : ∃ p ∈ history.before?, p.fingerprint = b.phase.fingerprint := by
        simpa using hno
      have hmore := hcounted.carried p hp hsame
      simp only [hno, or_false]
      omega
  · have hprecedes := hordered.precedes p hp
    exact Phase.add_gap_le_of_fingerprint_eq hordered.since_lt hprecedes.since_le hprecedes.ne hsame

/-- Two trips, with two rejections each. The first phase in which requests were rejected has another
fingerprint than the present one, so only the two rejections of the second trip count. -/
theorem rejectCount_eq_iff_reopened :
    let r := Resource.service "s"
    let e : Edition DegradeRule := { serial := 1, rule := {
      resource := r, strategy := .totalErrors 1, breakMs := 1000 } }
    let failing := ((StatStore.new 1000 10).incr r .completed 500).incr r .error 500
    let again := (failing.incr r .completed 1700).incr r .error 1700
    let cs := [BreakerCall.permit failing 600 0, .permit failing 700 0, .permit failing 1601 0,
      .permit again 1700 0, .permit again 1800 0]
    let b := (Breaker.new r e).afterCalls cs
    let history := (Breaker.new r e).rejectHistory cs
    (∀ c ∈ cs, c.IsTimely) ∧ (cs.filterMap BreakerCall.time?).Pairwise (· ≤ ·) ∧
      history.before? = some ⟨.open, 600⟩ ∧ b.phase = ⟨.open, 1700⟩ ∧ history.since = 2 ∧
        b.rejectCount = 2 := by
  intro r e failing again cs b history
  have htimely : ∀ c ∈ cs, c.IsTimely := by
    intro c hc now hnow
    simp only [cs, List.mem_cons, List.not_mem_nil, or_false] at hc
    rcases hc with rfl | rfl | rfl | rfl | rfl <;> cases hnow <;> decide
  have hsorted : (cs.filterMap BreakerCall.time?).Pairwise (· ≤ ·) := by decide
  have hbefore : history.before? = some ⟨.open, 600⟩ := by decide +kernel
  have hsince : history.since = 2 := by decide +kernel
  have hphase : b.phase = ⟨.open, 1700⟩ := by decide +kernel
  have hcount := (rejectCount_eq_iff r e cs htimely hsorted).1.mpr (Or.inr fun p hp => by
    rw [hbefore] at hp
    cases hp
    rw [hphase]
    decide)
  refine ⟨htimely, hsorted, hbefore, hphase, hsince, hcount.trans ?_⟩
  rw [hsince]
  decide

/-- A breaker that opened at 600 lets a probe out at 100663896. It has rejected nothing since then, and
yet it reports the rejection of its first phase, for the two phases share a fingerprint. -/
theorem rejectCount_of_shared_fingerprint :
    let r := Resource.service "s"
    let e : Edition DegradeRule := { serial := 1, rule := {
      resource := r, strategy := .totalErrors 1, breakMs := 1000, resume := .detective } }
    let failing := ((StatStore.new 1000 10).incr r .completed 500).incr r .error 500
    let cs := [BreakerCall.permit failing 600 0, .permit failing 100663896 0]
    let b := (Breaker.new r e).afterCalls cs
    let history := (Breaker.new r e).rejectHistory cs
    (∀ c ∈ cs, c.IsTimely) ∧ (cs.filterMap BreakerCall.time?).Pairwise (· ≤ ·) ∧
      (Breaker.new r e).answers cs = [.decided .reject, .decided .probe] ∧
      b.phase = ⟨.resumeDetectively, 100663896⟩ ∧ history.since = 0 ∧ b.rejectCount = 1 ∧
      b.rejectCount ≠ min history.since rejectionLimit := by
  intro r e failing cs b history
  have htimely : ∀ c ∈ cs, c.IsTimely := by
    intro c hc now hnow
    simp only [cs, List.mem_cons, List.not_mem_nil, or_false] at hc
    rcases hc with rfl | rfl <;> cases hnow <;> decide
  have hsince : history.since = 0 := by decide +kernel
  have hcount : b.rejectCount = 1 := by decide +kernel
  refine ⟨htimely, by decide, by decide +kernel, by decide +kernel, hsince, hcount, ?_⟩
  rw [hsince, hcount]
  decide

end Breaker
end Floodgate
