import Floodgate.Proofs.Breaker.Run
import Mathlib.Data.List.Induction
import Mathlib.Data.List.Infix

/-!
# Open breakers and their probes

What a breaker promises while it protects its resource, along every run of calls. The promise has
two halves.

An open breaker turns every request away until its time is over. Here the point is that the time
counts from the call that opened it: `opened_of_open` finds that call, and no call that comes
later, whatever its time, has moved the start.

A breaker whose rule is detective at all times lets nothing through but probes, and one probe at a
time. For that rule a breaker is a transition system of its own, far smaller than the code:
`ProbeStep` lists its nine kinds of steps, `probeStep_call` says that every call is one of them,
and the counts (`probes_eq`) and the closed season (`admits_nothing`) are read off the steps.
-/

set_option autoImplicit false

namespace Floodgate

/-! ## The call that opened a breaker -/

namespace Breaker

theorem call_phase_of_open {b : Breaker} {c : BreakerCall} (hb : b.phase.state = .open)
    (hc : (b.call c).2.phase.state = .open) : (b.call c).2.phase = b.phase := by
  rcases b.call_phase_cases c with h | ⟨next, -, hne, h⟩
  · exact h
  · rw [h, Phase.unpack_pack_state] at hc
    exact absurd (hc.trans hb.symm) hne

theorem time_of_opens {b : Breaker} {c : BreakerCall} (hc : c.IsTimely)
    (hb : b.phase.state ≠ .open) (ho : (b.call c).2.phase.state = .open) :
    c.time? = some (b.call c).2.phase.since := by
  rcases b.call_phase_cases c with h | ⟨next, ht, -, h⟩
  · exact absurd (h ▸ ho) hb
  · rw [h, Phase.unpack_pack (hc _ ht)]
    exact ht

/-- A breaker that is open after some calls was opened by one of them, at the time since when it is
open, and has been open in that way ever since. -/
theorem opened_of_open {b₀ : Breaker} (h₀ : b₀.phase.state ≠ .open) (cs : List BreakerCall) :
    (∀ c ∈ cs, c.IsTimely) → ∀ {t : Nat}, (b₀.afterCalls cs).phase = ⟨.open, t⟩ →
      ∃ before c later, cs = before ++ c :: later ∧ c.time? = some t ∧
        (b₀.afterCalls before).phase.state ≠ .open ∧
        ∀ part, part <+: later → (b₀.afterCalls (before ++ c :: part)).phase = ⟨.open, t⟩ := by
  -- from the end: what opened the breaker is the last call, or what opened it before that
  induction cs using List.reverseRecOn with
  | nil =>
    intro _ t ht
    exact absurd (by rw [afterCalls_nil] at ht; rw [ht]) h₀
  | append_singleton cs c ih =>
    intro hcs t ht
    have hlast : ((b₀.afterCalls cs).call c).2.phase = ⟨.open, t⟩ := by
      rw [afterCalls_append] at ht
      exact ht
    by_cases ho : (b₀.afterCalls cs).phase.state = .open
    · -- it was open before the last call, and since the same time
      have hsame := call_phase_of_open ho (c := c) (by rw [hlast])
      have ht' : (b₀.afterCalls cs).phase = ⟨.open, t⟩ := hsame ▸ hlast
      obtain ⟨before, c', later, rfl, htime, hbefore, hsince⟩ :=
        ih (fun c' hc' => hcs c' (List.mem_append_left _ hc')) ht'
      refine ⟨before, c', later ++ [c], by simp, htime, hbefore, fun part hpart => ?_⟩
      rcases List.prefix_concat_iff.mp hpart with rfl | hpart
      · simpa using ht
      · exact hsince part hpart
    · refine ⟨cs, c, [], rfl, ?_, ho, fun part hpart => ?_⟩
      · have htime := time_of_opens (hcs c (by simp)) ho (by rw [hlast])
        rw [hlast] at htime
        exact htime
      · rw [List.prefix_nil.mp hpart]
        exact ht

/-- An open breaker turns away what comes before its time is over, and stays as it is. -/
theorem permit_of_open {b : Breaker} {t : Nat} (hb : b.phase = ⟨.open, t⟩) (stats : StatStore)
    {now : Nat} (draw : Float) (hnow : now ≤ t + b.rule.breakMs) :
    (b.permit stats now draw).1 = .reject ∧ (b.permit stats now draw).2.1.phase = b.phase := by
  have he : b.phase.evaluate b.rule (b.watched stats now) now draw = Phase.stay .reject := by
    rw [hb]
    have helapsed : now - t ≤ b.rule.breakMs := by omega
    simp [Phase.evaluate, helapsed]
  rw [permit_decision, permit_phase, he]
  exact ⟨rfl, rfl⟩

end Breaker

/-! ## A breaker of a detective rule -/

/-- The steps of a breaker whose rule is detective: the state before, what a call answers, and the
state after. -/
inductive ProbeStep : BreakerState → BreakerAnswer → BreakerState → Prop
  | pass : ProbeStep .closed (.decided .permit) .closed
  | trip : ProbeStep .closed (.decided .reject) .open
  | wait : ProbeStep .open (.decided .reject) .open
  | probe : ProbeStep .open (.decided .probe) .resumeDetectively
  | pending : ProbeStep .resumeDetectively (.decided .reject) .resumeDetectively
  | succeed : ProbeStep .resumeDetectively (.reported true true) .closed
  | fail : ProbeStep .resumeDetectively (.reported false true) .open
  /-- An outcome that no longer counts, because no probe is out. -/
  | late {s : BreakerState} (success : Bool) : s ≠ .resumeDetectively →
      ProbeStep s (.reported success false) s
  | update {s : BreakerState} (replaced : Bool) : ProbeStep s (.updated replaced) s

theorem probeStep_evaluate {p : Phase} {rule : DegradeRule} (hr : rule.resume = .detective)
    (hp : p.state ≠ .resumeGradually) (w : Window) (now : Nat) (draw : Float) :
    ProbeStep p.state (.decided (p.evaluate rule w now draw).decision)
      (((p.evaluate rule w now draw).next.map fun next => Phase.unpack next.pack).getD p).state := by
  obtain ⟨s, since⟩ := p
  cases s with
  | closed =>
    cases ht : rule.trips w with
    | true => simpa [Phase.evaluate, ht, Phase.enter] using ProbeStep.trip
    | false => simpa [Phase.evaluate, ht, Phase.stay] using ProbeStep.pass
  | «open» =>
    by_cases ht : now - since ≤ rule.breakMs
    · simpa [Phase.evaluate, ht, Phase.stay] using ProbeStep.wait
    · simpa [Phase.evaluate, ht, hr, Phase.enter] using ProbeStep.probe
  | resumeDetectively => simpa [Phase.evaluate, hr, Phase.stay] using ProbeStep.pending
  | resumeGradually => exact absurd rfl hp

/-- **Every call is a step** of the small transition system, as long as the rule is detective. -/
theorem probeStep_call {b : Breaker} (hr : b.rule.resume = .detective)
    (hb : b.phase.state ≠ .resumeGradually) (c : BreakerCall) :
    ProbeStep b.phase.state (b.call c).1 (b.call c).2.phase.state := by
  cases c with
  | permit stats now draw =>
    show ProbeStep _ (.decided (b.permit stats now draw).1) (b.permit stats now draw).2.1.phase.state
    rw [b.permit_decision, b.permit_phase]
    exact probeStep_evaluate hr hb _ now draw
  | outcome success stats now =>
    show ProbeStep _ (.reported success (decide ((b.onProbeOutcome success stats now).1.phase.state
      ≠ b.phase.state))) (b.onProbeOutcome success stats now).1.phase.state
    rw [b.onProbeOutcome_phase]
    by_cases hw : b.phase.state = .resumeDetectively
    · cases success with
      | true => simpa [Phase.afterProbe?, hw] using ProbeStep.succeed
      | false => simpa [Phase.afterProbe?, hw] using ProbeStep.fail
    · simpa [Phase.afterProbe?, hw] using ProbeStep.late success hw
  | update edition version =>
    show ProbeStep _ (.updated (b.update edition version).1) (b.update edition version).2.phase.state
    rw [b.update_phase]
    exact ProbeStep.update _

/-! ## Counting probes -/

/-- One if a probe is out, and else zero. -/
def BreakerState.pendingProbes (s : BreakerState) : Nat := if s = .resumeDetectively then 1 else 0

namespace BreakerAnswer

/-- Whether a call let a probe out. -/
def isProbe : BreakerAnswer → Bool
  | decided .probe => true
  | _ => false

/-- Whether a call reported an outcome that changed the state. -/
def settles : BreakerAnswer → Bool
  | reported _ changed => changed
  | _ => false

/-- Whether a request is let through otherwise than as a probe. -/
def admits : BreakerAnswer → Bool
  | decided .permit => true
  | _ => false

end BreakerAnswer

namespace ProbeStep

variable {s s' : BreakerState} {a : BreakerAnswer}

theorem ne_resumeGradually (h : ProbeStep s a s') (hs : s ≠ .resumeGradually) :
    s' ≠ .resumeGradually := by
  cases h <;> first | exact hs | decide

/-- A probe goes out when one becomes pending, and is settled when none is any more. -/
theorem balance (h : ProbeStep s a s') :
    s.pendingProbes + (if a.isProbe then 1 else 0) =
      s'.pendingProbes + (if a.settles then 1 else 0) := by
  cases h <;> rfl

/-- Away from the closed state nothing is let through but probes, and only the good outcome of a
probe leads back. -/
theorem stays_shut (h : ProbeStep s a s') (hs : s ≠ .closed) (ha : a ≠ .reported true true) :
    s' ≠ .closed ∧ a.admits = false := by
  cases h with
  | pass => exact absurd rfl hs
  | trip => exact absurd rfl hs
  | succeed => exact absurd rfl ha
  | wait => exact ⟨hs, rfl⟩
  | probe => exact ⟨by decide, rfl⟩
  | pending => exact ⟨hs, rfl⟩
  | fail => exact ⟨by decide, rfl⟩
  | late success hne => exact ⟨hs, rfl⟩
  | update replaced => exact ⟨hs, rfl⟩

theorem admits_of_opens (h : ProbeStep s a s') (hs : s ≠ .open) (hs' : s' = .open) :
    a.admits = false := by
  cases h <;> first | rfl | exact absurd hs' (by decide)

end ProbeStep

/-! ## Runs under a detective rule -/

namespace Breaker

/-- The rule in force is detective before a run of calls and after each of them. -/
def IsDetective (b : Breaker) (cs : List BreakerCall) : Prop :=
  ∀ part, part <+: cs → (b.afterCalls part).rule.resume = .detective

theorem IsDetective.head {b : Breaker} {cs : List BreakerCall} (h : b.IsDetective cs) :
    b.rule.resume = .detective := h [] List.nil_prefix

theorem IsDetective.append {b : Breaker} {cs cs' : List BreakerCall}
    (h : b.IsDetective (cs ++ cs')) : (b.afterCalls cs).IsDetective cs' := fun part hpart => by
  rw [← afterCalls_append]
  exact h (cs ++ part) ((List.prefix_append_right_inj cs).mpr hpart)

theorem IsDetective.tail {b : Breaker} {c : BreakerCall} {cs : List BreakerCall}
    (h : b.IsDetective (c :: cs)) : (b.call c).2.IsDetective cs := fun part hpart => by
  rw [← afterCalls_cons]
  exact h (c :: part) (List.cons_prefix_cons.mpr ⟨rfl, hpart⟩)

theorem state_ne_resumeGradually {cs : List BreakerCall} :
    ∀ {b : Breaker}, b.IsDetective cs → b.phase.state ≠ .resumeGradually →
      (b.afterCalls cs).phase.state ≠ .resumeGradually := by
  induction cs with
  | nil => exact fun _ hb => hb
  | cons c cs ih =>
    exact fun h hb => ih h.tail ((probeStep_call h.head hb c).ne_resumeGradually hb)

/-- **One probe at a time**: along a run, as many probes go out as are settled, but for the one that
is pending. -/
theorem probes_eq {cs : List BreakerCall} :
    ∀ {b : Breaker}, b.IsDetective cs → b.phase.state ≠ .resumeGradually →
      b.phase.state.pendingProbes + (b.answers cs).countP BreakerAnswer.isProbe =
        (b.afterCalls cs).phase.state.pendingProbes +
          (b.answers cs).countP BreakerAnswer.settles := by
  induction cs with
  | nil => exact fun _ _ => rfl
  | cons c cs ih =>
    intro b h hb
    have hstep := probeStep_call h.head hb c
    have hone := hstep.balance
    have hrest := ih h.tail (hstep.ne_resumeGradually hb)
    simp only [answers, List.countP_cons, afterCalls_cons]
    omega

/-- **The closed season**: a breaker that is not closed admits nothing but probes, until the good
outcome of one of them. -/
theorem admits_nothing {cs : List BreakerCall} :
    ∀ {b : Breaker}, b.IsDetective cs → b.phase.state ≠ .resumeGradually →
      b.phase.state ≠ .closed → .reported true true ∉ b.answers cs →
      ∀ a ∈ b.answers cs, a.admits = false := by
  induction cs with
  | nil => exact fun _ _ _ _ a ha => absurd ha List.not_mem_nil
  | cons c cs ih =>
    intro b h hb hshut hno a ha
    have hstep := probeStep_call h.head hb c
    obtain ⟨hnext, hone⟩ := hstep.stays_shut hshut fun e => hno (e ▸ List.mem_cons_self)
    rcases List.mem_cons.mp ha with rfl | ha
    · exact hone
    · exact ih h.tail (hstep.ne_resumeGradually hb) hnext
        (fun hm => hno (List.mem_cons_of_mem _ hm)) a ha

/-- **What an open breaker promises**, after any run of calls. If it is open since `t`, the call that
opened it was made at `t` and nothing has interrupted it since; a request that comes no later than
the time of its rule after `t` is turned away and leaves the phase as it is.

If the rule in force has been detective all the time, as many probes went out as were settled, but
for the one that is pending while the breaker waits; and from a call that opens the breaker on,
until the good outcome of a probe, no request is let through that is not a probe. -/
theorem open_and_detective_runs (r : Resource) (e : Edition DegradeRule) (cs : List BreakerCall)
    (h : ∀ c ∈ cs, c.IsTimely) :
    let b₀ := Breaker.new r e
    let b := b₀.afterCalls cs
    (∀ t, b.phase = ⟨.open, t⟩ →
      (∃ before c later, cs = before ++ c :: later ∧ c.time? = some t ∧
        (b₀.afterCalls before).phase.state ≠ .open ∧
        ∀ part, part <+: later → (b₀.afterCalls (before ++ c :: part)).phase = ⟨.open, t⟩) ∧
      ∀ (stats : StatStore) (now : Nat) (draw : Float), now ≤ t + b.rule.breakMs →
        (b.permit stats now draw).1 = .reject ∧ (b.permit stats now draw).2.1.phase = b.phase) ∧
    (b₀.IsDetective cs →
      (b₀.answers cs).countP BreakerAnswer.isProbe =
        (b₀.answers cs).countP BreakerAnswer.settles +
          (if b.phase.state = .resumeDetectively then 1 else 0) ∧
      ∀ before c later, cs = before ++ c :: later →
        (b₀.afterCalls before).phase.state ≠ .open →
        (b₀.afterCalls (before ++ [c])).phase.state = .open →
        .reported true true ∉ (b₀.afterCalls (before ++ [c])).answers later →
        ∀ a ∈ (b₀.afterCalls before).answers (c :: later), a.admits = false) := by
  intro b₀ b
  have hclosed : b₀.phase.state = .closed := rfl
  have hgradual : b₀.phase.state ≠ .resumeGradually := by rw [hclosed]; decide
  refine ⟨fun t ht => ⟨opened_of_open (by rw [hclosed]; decide) cs h ht,
    fun stats now draw hnow => permit_of_open ht stats draw hnow⟩, fun hd => ⟨?_, ?_⟩⟩
  · have hcount := probes_eq hd hgradual
    rw [hclosed] at hcount
    simp only [BreakerState.pendingProbes, reduceCtorEq, if_false, Nat.zero_add] at hcount
    rw [hcount, Nat.add_comm]
  · rintro before c later rfl hbefore hopen hno a ha
    have hd' : (b₀.afterCalls before).IsDetective (c :: later) := hd.append
    have hne : (b₀.afterCalls before).phase.state ≠ .resumeGradually :=
      state_ne_resumeGradually
        (fun part hpart => hd part (hpart.trans (List.prefix_append _ _))) hgradual
    have hstep := probeStep_call hd'.head hne c
    rw [afterCalls_append, afterCalls_cons, afterCalls_nil] at hopen hno
    rcases List.mem_cons.mp ha with rfl | ha
    · exact hstep.admits_of_opens hbefore hopen
    · refine admits_nothing hd'.tail (hstep.ne_resumeGradually hne) ?_ hno a ha
      rw [hopen]
      decide

/-- A breaker that trips, lets a probe out, and is opened again by its failure: it is open since the
time of the report, and turns away a request that comes the length of its break after that. -/
theorem open_and_detective_runs_reopened :
    let r := Resource.service "s"
    let e : Edition DegradeRule := { serial := 1, rule := {
      resource := r, strategy := .totalErrors 1, breakMs := 1000, resume := .detective } }
    let failing := ((StatStore.new 1000 10).incr r .completed 500).incr r .error 500
    let cs := [BreakerCall.permit failing 600 0, .permit failing 1601 0, .outcome false failing 1700]
    let b := (Breaker.new r e).afterCalls cs
    (∀ c ∈ cs, c.IsTimely) ∧ b.phase = ⟨.open, 1700⟩ ∧ (b.permit failing 2700 0).1 = .reject ∧
      (Breaker.new r e).IsDetective cs ∧
      ((Breaker.new r e).answers cs).countP BreakerAnswer.isProbe = 1 := by
  intro r e failing cs b
  have htimely : ∀ c ∈ cs, c.IsTimely := by
    intro c hc now hnow
    simp only [cs, List.mem_cons, List.not_mem_nil, or_false] at hc
    rcases hc with rfl | rfl | rfl <;> cases hnow <;> decide
  have hphase : b.phase = ⟨.open, 1700⟩ := by decide
  have hdetective : (Breaker.new r e).IsDetective cs := by
    intro part hpart
    have hall : ∀ part ∈ cs.inits, ((Breaker.new r e).afterCalls part).rule.resume = .detective := by
      decide
    exact hall part ((List.mem_inits _ _).mpr hpart)
  have hrun := open_and_detective_runs r e cs htimely
  have hbreak : 2700 ≤ 1700 + b.rule.breakMs := by decide
  refine ⟨htimely, hphase, ((hrun.1 1700 hphase).2 failing 2700 0 hbreak).1, hdetective, ?_⟩
  have hcount := (hrun.2 hdetective).1
  have hsettled : ((Breaker.new r e).answers cs).countP BreakerAnswer.settles = 1 := by decide
  rw [hcount, hsettled]
  decide

end Breaker
end Floodgate
