import Floodgate.Proofs.Breaker.Monitor
import Floodgate.Proofs.Breaker.Probes

/-!
# What opened a breaker does not open it again

The traffic that a closed breaker looks at begins with the slot in which it was closed, and a slot
may be older than the moment that it is closed in. So it takes an argument that the errors which
once opened a breaker are not among that traffic when it is back. The argument is in the times: an
open breaker stays open for longer than its break, which is a slot or more, and whatever it does
after that, no phase of it begins earlier. The slot of such a phase begins after the breaker opened
(`lt_window_start`), and nothing that was written before that lies in it.

It does not matter on which way the breaker came back, how many probes failed on it, or which
rules it was shown in the meantime. What the argument uses of one event is `phase_step`.
-/

set_option autoImplicit false

namespace Floodgate
namespace MonitorRun

variable {run : MonitorRun} {slotMs t now : Nat}

/-! ## The phase -/

/-- **What an event does to the phase**: nothing, or it enters one at its own time, and leaves an
open phase only when the break is over. -/
theorem phase_step (run : MonitorRun) (event : MonitorEvent)
    (htimely : ∀ s, event.time? = some s → s < Phase.timeSize) :
    (run.step event).breaker.phase = run.breaker.phase ∨
      ∃ s, event.time? = some s ∧ (run.step event).breaker.phase.since = s ∧
        (run.breaker.phase.state = .open →
          run.breaker.phase.since + run.breaker.rule.breakMs < s) := by
  cases event with
  | write c => exact Or.inl rfl
  | update edition version => exact Or.inl (run.breaker.update_phase edition version)
  | permit s draw =>
    rcases run.breaker.call_phase_cases (.permit run.stats s draw) with
      hsame | ⟨next, htime, hstate, hnext⟩
    · exact Or.inl hsame
    · have hs : next.since = s := (Option.some.inj htime).symm
      rw [Phase.unpack_pack (hs ▸ htimely s rfl)] at hnext
      refine Or.inr ⟨s, rfl, (congrArg Phase.since hnext).trans hs, fun hopen => ?_⟩
      by_contra hearly
      -- within its break the breaker would have stayed as it is
      have hstays := (Breaker.permit_of_open (b := run.breaker) (t := run.breaker.phase.since)
        (by rw [← hopen]) run.stats draw (Nat.le_of_not_lt hearly)).2
      exact hstate (congrArg Phase.state (hnext.symm.trans hstays))
  | outcome success s =>
    have hphase := run.breaker.onProbeOutcome_phase success run.stats s
    cases hnext : run.breaker.phase.afterProbe? success s with
    | none =>
      rw [hnext] at hphase
      exact Or.inl hphase
    | some next =>
      have hs : next.since = s := (Phase.afterProbe?_next hnext).1
      rw [hnext, Option.map_some, Option.getD_some, Phase.unpack_pack (hs ▸ htimely s rfl)] at hphase
      refine Or.inr ⟨s, rfl, (congrArg Phase.since hphase).trans hs, fun hopen => ?_⟩
      -- an open breaker waits for no probe
      simp [Phase.afterProbe?, hopen] at hnext

/-- A phase that follows the opening of a breaker: it is open since then, or began more than a slot
later. -/
def IsPast (t slotMs : Nat) (p : Phase) : Prop :=
  p.state = .open ∧ t ≤ p.since ∨ t + slotMs < p.since

/-- **Every phase that follows is past the opening**, as long as the breaks are no shorter than a
slot and time does not run backwards. -/
theorem isPast_after (events : List MonitorEvent) :
    ∀ run : MonitorRun,
      (∀ part, part <+: events → slotMs ≤ (run.after part).breaker.rule.breakMs) →
      (events.filterMap MonitorEvent.time?).Pairwise (· ≤ ·) →
      (∀ s ∈ events.filterMap MonitorEvent.time?, s < Phase.timeSize) →
      (run.breaker.phase.state = .open ∧ t ≤ run.breaker.phase.since ∨
        t + slotMs < run.breaker.phase.since ∧
          ∀ s ∈ events.filterMap MonitorEvent.time?, t + slotMs < s) →
      IsPast t slotMs (run.after events).breaker.phase := by
  -- from the front: once the open phase is left, all later times are past the opening as well
  induction events with
  | nil =>
    intro run _ _ _ hpast
    exact hpast.imp_right And.left
  | cons event events ih =>
    intro run hbreak hsorted htimely hpast
    have hsplit : (event :: events).filterMap MonitorEvent.time? =
        event.time?.toList ++ events.filterMap MonitorEvent.time? := by
      cases h : event.time? <;> simp [h]
    rw [hsplit] at hsorted htimely hpast
    obtain ⟨-, hsorted', hlater⟩ := List.pairwise_append.mp hsorted
    have hhere : slotMs ≤ run.breaker.rule.breakMs := hbreak [] List.nil_prefix
    refine ih (run.step event)
      (fun part hpart => hbreak (event :: part) (List.cons_prefix_cons.mpr ⟨rfl, hpart⟩)) hsorted'
      (fun s hs => htimely s (List.mem_append_right _ hs)) ?_
    rcases run.phase_step event fun s hs => htimely s (by simp [hs]) with
      hsame | ⟨s, hs, hsince, hover⟩
    · rw [hsame]
      exact hpast.imp_right fun h => ⟨h.1, fun s hs => h.2 s (List.mem_append_right _ hs)⟩
    · have hnow : t + slotMs < s := by
        rcases hpast with ⟨hopen, ht⟩ | ⟨-, hall⟩
        · have := hover hopen
          omega
        · exact hall s (by simp [hs])
      refine Or.inr ⟨hsince ▸ hnow, fun s' hs' => ?_⟩
      have hle : s ≤ s' := hlater s (by simp [hs]) s' hs'
      omega

/-! ## The window -/

/-- The slot of a phase that is past the opening, and is not open, begins after the opening. -/
theorem IsPast.lt_floor {g : Grid} {p : Phase} (h : IsPast t g.slotMs p)
    (hclosed : p.state = .closed) : t < g.floor p.since := by
  rcases h with ⟨hopen, -⟩ | hlate
  · rw [hclosed] at hopen
    cases hopen
  · have := g.lt_floor_add p.since
    omega

/-- A closed breaker looks at the traffic from the slot on in which it was closed. -/
theorem watched_of_closed {b : Breaker} (hclosed : b.phase.state = .closed) (stats : StatStore)
    (now : Nat) : ∃ start stop, b.watched stats now = stats.window b.resource start stop ∧
      stats.grid.floor b.phase.since ≤ start ∧ stop < Word.size := by
  rw [Breaker.watched, if_pos hclosed]
  exact ⟨_, _, rfl, Nat.le_max_right _ _, Word.addWrapping_lt _ _⟩

/-- **Nothing that opened a breaker is held against it again.** Time does not run backwards and has
fifty-six bits, and the breaks of all rules in force are a slot or more. If the breaker was open
since `t` at some moment and a later request finds it closed, the window of that request begins
after `t`, and every count in it is made up of what was written after `t` in its slots. -/
theorem watched_after_reopening (b : Breaker) (slotMs retained : Nat)
    (before later : List MonitorEvent) (t now : Nat) :
    let start := MonitorRun.start b slotMs retained
    let run := start.after (before ++ later)
    let g := start.stats.grid
    let window := run.breaker.watched run.stats now
    let sinceThen := (start.written (before ++ later)).filter fun w => t < w.time
    (((before ++ later).filterMap MonitorEvent.time?) ++ [now]).Pairwise (· ≤ ·) →
      now < Phase.timeSize →
      (∀ part, part <+: before ++ later → g.slotMs ≤ (start.after part).breaker.rule.breakMs) →
      (start.after before).breaker.phase = ⟨.open, t⟩ → run.breaker.phase.state = .closed →
      t < window.start ∧
        ∀ o, window.tally.count o ≤
          countIn g run.breaker.resource o window.start window.stop sinceThen := by
  intro start run g window sinceThen hsorted hnow hbreak hopen hclosed
  obtain ⟨hsorted, -, hlast⟩ := List.pairwise_append.mp hsorted
  have htime : ∀ s ∈ (before ++ later).filterMap MonitorEvent.time?, s ≤ now := fun s hs =>
    hlast s hs now (List.mem_singleton.mpr rfl)
  have hgrid : run.stats.grid = g := start.grid_after (before ++ later)
  have hrun : run = (start.after before).after later := List.foldl_append
  have hpast : IsPast t g.slotMs run.breaker.phase := by
    rw [hrun]
    rw [List.filterMap_append] at hsorted htime
    refine isPast_after later _ (fun part hpart => ?_) (List.pairwise_append.mp hsorted).2.1
      (fun s hs => Nat.lt_of_le_of_lt (htime s (List.mem_append_right _ hs)) hnow)
      (Or.inl (by simp [hopen]))
    have hall := hbreak (before ++ part) ((List.prefix_append_right_inj before).mpr hpart)
    rw [after, List.foldl_append] at hall
    exact hall
  have hafter : t < g.floor run.breaker.phase.since := hpast.lt_floor hclosed
  obtain ⟨first, stop, hwindow, hfirst, hstop⟩ := watched_of_closed hclosed run.stats now
  rw [hgrid] at hfirst
  obtain ⟨log, hlog, hcount⟩ := recordedBy_after_written b slotMs retained (before ++ later) htime
  obtain ⟨hstart, hend⟩ := run.stats.range_window run.breaker.resource first stop
  have hlate : t < first := Nat.lt_of_lt_of_le hafter hfirst
  simp only [window, hwindow, hstart, hend]
  refine ⟨hlate, fun o => ?_⟩
  calc (run.stats.window run.breaker.resource first stop).tally.count o
      ≤ countIn run.stats.grid run.breaker.resource o first stop log :=
        hlog.count_window_le _ _ hstop o
    _ = countIn run.stats.grid run.breaker.resource o first stop
          (start.written (before ++ later)) := hcount _ o _ _
    _ = countIn g run.breaker.resource o first stop sinceThen := ?_
  rw [hgrid]
  -- what is counted there was written in a slot that begins after the opening
  rw [countIn, countIn, List.countP_filter]
  refine List.countP_congr fun w _ => ?_
  have hfloor := g.floor_le w.time
  simp only [decide_eq_true_eq, Bool.and_eq_true]
  constructor
  · rintro ⟨hr, ho, hin⟩
    exact ⟨⟨hr, ho, hin⟩, by omega⟩
  · exact And.left

/-- The errors of time 600 open a breaker whose rule is detective. Its first probe fails, and while
the second is out the rule becomes an immediate one, so the next request closes the breaker. The
errors are younger than the rule looks back, and still they do not count for the request after
that: only the one error written since does. -/
theorem watched_after_reopening_switched :
    let r := Resource.service "s"
    let rule : DegradeRule := {
      resource := r, strategy := .totalErrors 2, breakMs := 1000, resume := .detective }
    let before := [MonitorEvent.write (.incr r .completed 500), .write (.incr r .error 600),
      .write (.incr r .error 600), .permit 700 0]
    let later := [MonitorEvent.permit 1800 0, .outcome false 1900, .permit 3000 0,
      .update { serial := 2, rule := { rule with resume := .immediate } } 1, .permit 3100 0,
      .write (.incr r .completed 3200), .write (.incr r .error 3200)]
    let run := (start (.new r { serial := 1, rule }) 1000 20).after (before ++ later)
    let window := run.breaker.watched run.stats 3300
    700 < window.start ∧ window.tally.count .error ≤ 1 ∧
      (run.breaker.permit run.stats 3300 0).1 = .permit := by
  intro r rule before later run window
  have hbreak : ∀ part ∈ (before ++ later).inits, 1000 ≤
      ((start (.new r { serial := 1, rule }) 1000 20).after part).breaker.rule.breakMs := by
    decide +kernel
  obtain ⟨hstart, hcount⟩ := watched_after_reopening (.new r { serial := 1, rule }) 1000 20 before
    later 700 3300 (by decide +kernel) (by decide)
    (fun part hpart => hbreak part ((List.mem_inits _ _).mpr hpart)) (by decide +kernel)
    (by decide +kernel)
  exact ⟨hstart, Nat.le_trans (hcount .error) (by decide +kernel), by decide +kernel⟩

end MonitorRun
end Floodgate
