import Floodgate.Proofs.Admission.Run
import Floodgate.Proofs.Breaker.Registry
import Floodgate.Proofs.Rule.Loader

/-!
# Breakers that wait for a probe

A breaker in detective recovery turns every request away until the outcome of its probe is known.
A probe whose outcome never came would close the resource for good, so it matters that somebody
always holds a permit that owes the outcome.

`Registry.Awaits` is stated for handles and not for resources: a breaker may leave the registry
while its probe is out, and another may take its place. Of all that happens to the breakers only one
thing makes a handle wait that did not, a request that this very breaker lets through as its probe.
What ends the wait is the report of a probe of this breaker, or a request that it lets through in
another way, for its rule may not be detective any more (`awaits_permit_iff`,
`awaits_onProbeOutcome_iff`). New rules, whatever they say, do neither (`phaseOf_reconcile`).
`Registry.Covered` is the invariant.
-/

set_option autoImplicit false

namespace Floodgate

/-! ## One breaker -/

theorem gradualDecision_ne_probe (elapsed windowMs : Nat) (draw : Float) :
    gradualDecision elapsed windowMs draw ≠ .probe := by
  unfold gradualDecision
  dsimp only
  split
  · exact Decision.noConfusion
  · exact Decision.noConfusion

/-- A request leads into detective recovery exactly if it is the probe, and leaves a breaker there
exactly if it is turned away. -/
theorem Phase.detectively_iff (p : Phase) (rule : DegradeRule) (w : Window) (now : Nat)
    (draw : Float) :
    (((p.evaluate rule w now draw).next.map fun next => unpack next.pack).getD p).state =
        .resumeDetectively ↔
      (p.evaluate rule w now draw).decision = .probe ∨
        p.state = .resumeDetectively ∧ (p.evaluate rule w now draw).decision = .reject := by
  obtain ⟨s, since⟩ := p
  cases s with
  | closed => cases ht : rule.trips w <;> simp [evaluate, ht, enter, stay]
  | «open» =>
    by_cases ht : now - since ≤ rule.breakMs
    · simp [evaluate, ht, stay]
    · cases hr : rule.resume <;> simp [evaluate, ht, hr, enter, gradualDecision_ne_probe]
  | resumeDetectively => cases hr : rule.resume <;> simp [evaluate, hr, enter, stay]
  | resumeGradually =>
    cases hr : rule.resume with
    | immediate => simp [evaluate, hr, enter]
    | detective => simp [evaluate, hr, enter]
    | gradual windowMs =>
      by_cases ht : now - since < windowMs
      · simp [evaluate, hr, ht, stay, gradualDecision_ne_probe]
      · simp [evaluate, hr, ht, enter]

namespace Breaker

/-- The breaker waits for the outcome of its probe. -/
def Waits (b : Breaker) : Prop := b.phase.state = .resumeDetectively

/-- After a request a breaker waits exactly if the request is its probe, or if it waited before and
has turned the request away. -/
theorem waits_permit_iff (b : Breaker) (stats : StatStore) (now : Nat) (draw : Float) :
    (b.permit stats now draw).2.1.Waits ↔
      (b.permit stats now draw).1 = .probe ∨
        b.Waits ∧ (b.permit stats now draw).1 = .reject := by
  rw [Waits, permit_phase, permit_decision]
  exact b.phase.detectively_iff b.rule (b.watched stats now) now draw

/-- Once told the outcome of a probe, a breaker waits for none, even if it was not waiting. -/
theorem not_waits_onProbeOutcome (b : Breaker) (success : Bool) (stats : StatStore) (now : Nat) :
    ¬ (b.onProbeOutcome success stats now).1.Waits := by
  rw [Waits, onProbeOutcome_phase, Phase.afterProbe?]
  split
  · rw [Option.map_some, Option.getD_some, Phase.unpack_pack_state]
    cases success with
    | true => exact BreakerState.noConfusion
    | false => exact BreakerState.noConfusion
  · assumption

end Breaker

/-! ## The breakers in service, and those that have left it -/

namespace Registry

/-- The breaker of a handle waits for the outcome of its probe. -/
def Awaits (g : Registry) (h : Handle Resource) : Prop := ∃ b, g.held? h = some b ∧ b.Waits

/-- The phase of the breaker of a handle. One that has not been made yet is as it will be made. -/
def phaseOf (g : Registry) (h : Handle Resource) : Phase :=
  ((g.held? h).map Breaker.phase).getD .initial

variable {g : Registry} {h : Handle Resource}

theorem phaseOf_of_held? {b : Breaker} (hb : g.held? h = some b) : g.phaseOf h = b.phase := by
  rw [phaseOf, hb]
  rfl

theorem awaits_iff : g.Awaits h ↔ (g.phaseOf h).state = .resumeDetectively := by
  unfold phaseOf
  cases hb : g.held? h with
  | none =>
    refine iff_of_false ?_ BreakerState.noConfusion
    rintro ⟨b, hb', -⟩
    rw [hb] at hb'
    cases hb'
  | some b =>
    constructor
    · rintro ⟨c, hc, hw⟩
      rw [hb] at hc
      cases hc
      exact hw
    · exact fun hw => ⟨b, hb, hw⟩

instance (g : Registry) (h : Handle Resource) : Decidable (g.Awaits h) :=
  decidable_of_iff _ awaits_iff.symm

theorem awaits_congr {g' : Registry} (hphase : g'.phaseOf h = g.phaseOf h) :
    g'.Awaits h ↔ g.Awaits h := by
  rw [awaits_iff, awaits_iff, hphase]

/-! New rules change what a breaker runs on, make breakers and take some out of service. They leave
each its phase. -/

theorem phaseOf_install (g : Registry) {r : Resource} {b : Breaker} (hb : b.phase = .initial) :
    ({ breakers := g.breakers.install r b } : Registry).phaseOf h = g.phaseOf h := by
  simp only [phaseOf, held?, Roster.get?_install]
  split
  · rename_i hat
    have hnew : g.breakers.get? h = none := by
      rw [hat]
      exact List.getElem?_eq_none (Nat.le_refl _)
    rw [hnew]
    exact hb
  · rfl

theorem phaseOf_modify (g : Registry) (hd : Handle Resource) (f : Breaker → Breaker) :
    ({ breakers := g.breakers.modify hd f } : Registry).phaseOf h =
      if h = hd then ((g.held? hd).map fun b => (f b).phase).getD .initial else g.phaseOf h := by
  simp only [phaseOf, held?, Roster.get?_modify]
  split
  · rw [Option.map_map]
    rfl
  · rfl

theorem phaseOf_dropStale (g : Registry) (book : RuleBook) :
    (g.dropStale book).phaseOf h = g.phaseOf h := by
  rw [phaseOf, held?, dropStale, Roster.get?_retain]
  rfl

theorem phaseOf_refresh (g : Registry) (book : RuleBook) :
    (g.refresh book).phaseOf h = g.phaseOf h := by
  simp only [phaseOf, held?, refresh, Roster.get?_modifyCurrent]
  split
  · rw [Option.map_map]
    congr 2
    funext b
    simp only [Function.comp_apply]
    split
    · exact b.update_phase _ _
    · rfl
  · rfl

theorem phaseOf_addFor (g : Registry) (version : Nat) (e : Edition DegradeRule) :
    (addFor version g e).phaseOf h = g.phaseOf h := by
  rcases addFor_cases g version e with ⟨hskip, -⟩ | ⟨-, -, -, hadd⟩
  · rw [hskip]
  · rw [hadd]
    exact g.phaseOf_install (Breaker.update_phase _ e version)

theorem phaseOf_foldl_addFor (version : Nat) (es : List (Edition DegradeRule)) :
    ∀ g : Registry, (es.foldl (addFor version) g).phaseOf h = g.phaseOf h := by
  induction es with
  | nil => exact fun g => rfl
  | cons e es ih => exact fun g => (ih _).trans (g.phaseOf_addFor version e)

/-- **A new book leaves every breaker its phase.** Those that it takes out of service keep theirs,
and those that it makes are closed. -/
theorem phaseOf_reconcile (g : Registry) (book : RuleBook) :
    (g.reconcile book).phaseOf h = g.phaseOf h := by
  rw [reconcile, phaseOf_foldl_addFor, phaseOf_refresh, phaseOf_dropStale]

theorem not_awaits_ofBook (book : RuleBook) : ¬ (ofBook book).Awaits h := by
  rw [ofBook, awaits_congr (phaseOf_reconcile _ book)]
  rintro ⟨b, hb, -⟩
  cases hb

/-! Requests and reports. -/

theorem phaseOf_lookup (g : Registry) (book : RuleBook) (candidates : List Resource) :
    (g.lookup book candidates).2.phaseOf h = g.phaseOf h := by
  cases he : book.degrades.firstEnabled? candidates with
  | none => rw [lookup, he]
  | some e =>
    obtain ⟨hd, hh⟩ := Option.isSome_iff_exists.mp
      (g.handle?_withOne_isSome (e.rule.resource.bind candidates) e)
    have hmade : ({ breakers := g.withOne (e.rule.resource.bind candidates) e } : Registry).phaseOf
        h = g.phaseOf h := by
      unfold withOne
      split
      · rfl
      · exact g.phaseOf_install rfl
    rw [lookup_eq he hh, phaseOf_modify, ← hmade]
    split
    · rename_i hat
      rw [hat, phaseOf]
      congr 2
      funext b
      exact b.update_phase e book.version
    · rfl

/-- What a breaker makes of a request, as the registry passes it on. -/
theorem permitBy_fst (g : Registry) (hd : Handle Resource) (b : Breaker) (stats : StatStore)
    (now : Nat) (draw : Float) :
    (g.permitBy hd b stats now draw).1 =
      match (b.permit stats now draw).1 with
      | .permit => .permit hd false
      | .probe => .permit hd true
      | .reject => .reject hd (b.permit stats now draw).2.1.phase.state := by
  unfold permitBy
  generalize b.permit stats now draw = asked
  obtain ⟨decision, b', stats'⟩ := asked
  cases decision with
  | permit => rfl
  | probe => rfl
  | reject => rfl

theorem permitBy_registry (g : Registry) (hd : Handle Resource) (b : Breaker) (stats : StatStore)
    (now : Nat) (draw : Float) :
    (g.permitBy hd b stats now draw).2.1 =
      { breakers := g.breakers.modify hd fun _ => (b.permit stats now draw).2.1 } := by
  unfold permitBy
  generalize b.permit stats now draw = asked
  obtain ⟨decision, b', stats'⟩ := asked
  cases decision with
  | permit => rfl
  | probe => rfl
  | reject => rfl

/-- **After a request a breaker waits** exactly if the request is its probe, or if it waited before
and has not let the request through. -/
theorem awaits_permit_iff (g : Registry) (book : RuleBook) (stats : StatStore)
    (candidates : List Resource) (now : Nat) (draw : Float) :
    (g.permit book stats candidates now draw).2.1.Awaits h ↔
      (g.permit book stats candidates now draw).1 = .permit h true ∨
        g.Awaits h ∧ ∀ probe, (g.permit book stats candidates now draw).1 ≠ .permit h probe := by
  rcases g.permit_cases book stats candidates now draw with
    ⟨-, hpermit⟩ | ⟨e, hd, b, -, -, -, hb, -, hpermit⟩
  · simp [hpermit]
  · have hphase : g.phaseOf hd = b.phase :=
      (g.phaseOf_lookup book candidates).symm.trans (phaseOf_of_held? hb)
    rw [hpermit, permitBy_registry, permitBy_fst, awaits_iff, awaits_iff, phaseOf_modify,
      phaseOf_lookup]
    by_cases hat : h = hd
    · subst hat
      have hwaits := b.waits_permit_iff stats now draw
      rw [if_pos rfl, hb, Option.map_some, Option.getD_some, hphase]
      simp only [Breaker.Waits] at hwaits
      rw [hwaits]
      cases (b.permit stats now draw).1 <;> simp
    · have hother : hd ≠ h := fun heq => hat heq.symm
      rw [if_neg hat]
      cases (b.permit stats now draw).1 <;> simp [hother]

/-- **A report ends the wait of the breaker that it is for**, in service or not, and no other. -/
theorem awaits_onProbeOutcome_iff {hd : Handle Resource} {success : Bool} {stats : StatStore}
    {now : Nat} :
    (g.onProbeOutcome hd success stats now).1.Awaits h ↔ g.Awaits h ∧ h ≠ hd := by
  unfold onProbeOutcome
  cases hb : g.held? hd with
  | some b =>
    simp only [awaits_iff, phaseOf_modify, hb, Option.map_some, Option.getD_some]
    by_cases hat : h = hd
    · rw [if_pos hat]
      exact iff_of_false (b.not_waits_onProbeOutcome success stats now) fun hw => hw.2 hat
    · rw [if_neg hat]
      exact (and_iff_left hat).symm
  | none =>
    refine ⟨fun ha => ⟨ha, ?_⟩, And.left⟩
    rintro rfl
    obtain ⟨b, hb', -⟩ := ha
    rw [hb] at hb'
    cases hb'

/-- A report changes the phase of no breaker but the one that it is for, and that only if it waits. -/
theorem of_phaseOf_onProbeOutcome_ne {hd : Handle Resource} {success : Bool} {stats : StatStore}
    {now : Nat} (hne : (g.onProbeOutcome hd success stats now).1.phaseOf h ≠ g.phaseOf h) :
    h = hd ∧ g.Awaits h := by
  unfold onProbeOutcome at hne
  cases hb : g.held? hd with
  | none =>
    rw [hb] at hne
    exact absurd rfl hne
  | some b =>
    rw [hb] at hne
    simp only [phaseOf_modify, hb, Option.map_some, Option.getD_some] at hne
    split at hne
    · rename_i hat
      subst hat
      refine ⟨rfl, b, hb, ?_⟩
      by_contra hidle
      have hsame : b.phase.afterProbe? success now = none := if_neg hidle
      rw [Breaker.onProbeOutcome_phase, hsame, phaseOf_of_held? hb] at hne
      exact hne rfl
    · exact absurd rfl hne

end Registry

/-! ## Gates -/

/-- A rule document, whatever it says, leaves every breaker its phase. -/
theorem Gate.phaseOf_applyRule (g : Gate) (raw : RawRule) {h : Handle Resource} :
    (g.applyRule raw).2.breakers.phaseOf h = g.breakers.phaseOf h := by
  unfold applyRule
  dsimp only
  rcases Gate.loader.apply_cases raw g.book g.breakers with ⟨book', -, happly⟩ | ⟨-, happly⟩
  · rw [happly]
    cases raw.kind with
    | rateLimit => rfl
    | degrade => exact g.breakers.phaseOf_reconcile book'
  · rw [happly]

/-- A permit that is not the one given back is still out. -/
theorem mem_eraseIdx_of_ne {live : List Permit} {n : Nat} {p q : Permit} (hp : live[n]? = some p)
    (hq : q ∈ live) (hne : q ≠ p) : q ∈ live.eraseIdx n := by
  obtain ⟨hn, rfl⟩ := List.getElem?_eq_some_iff.mp hp
  rcases List.mem_cons.mp ((List.getElem_cons_eraseIdx_perm hn).mem_iff.mpr hq) with heq | hmem
  · exact absurd heq hne
  · exact hmem

namespace Registry

/-- Every breaker that waits has its probe among the live permits. -/
def Covered (g : Registry) (live : List Permit) : Prop :=
  ∀ h, g.Awaits h → ∃ t, .tracked t ∈ live ∧ t.probed? = some h

namespace Covered

variable {g g' : Registry} {live : List Permit}

theorem congr (hg : g.Covered live) (hawaits : ∀ h, g'.Awaits h → g.Awaits h) : g'.Covered live :=
  fun h ha => hg h (hawaits h ha)

theorem append (hg : g.Covered live) (ps : List Permit) : g.Covered (live ++ ps) := fun h ha =>
  let ⟨t, ht, hprobe⟩ := hg h ha
  ⟨t, List.mem_append_left ps ht, hprobe⟩

theorem ofBook (book : RuleBook) : (Registry.ofBook book).Covered [] := fun _ ha =>
  absurd ha (not_awaits_ofBook book)

theorem applyRule {gate : Gate} (hg : gate.breakers.Covered live) (raw : RawRule) :
    (gate.applyRule raw).2.breakers.Covered live :=
  hg.congr fun _ => (awaits_congr (gate.phaseOf_applyRule raw)).mp

theorem answer {gate gate' : Gate} {identity : Identity} {now : Nat} {draw : Float} {a : Admission}
    (hg : gate.breakers.Covered live) (ha : Gate.Answer gate identity now draw a gate') :
    gate'.breakers.Covered (live ++ a.permit?.toList) := by
  -- whatever the breakers say, what waits now waited before or has just let its probe through
  have hasked (leased : StatStore) (h : Handle Resource)
      (hw : (gate.breakers.permit gate.book leased identity.candidates now draw).2.1.Awaits h) :=
    ((gate.breakers.awaits_permit_iff gate.book leased identity.candidates now draw).mp
      hw).symm.imp_left And.left
  cases ha with
  | overLimit limited => exact hg.append _
  | @unguarded lease leased stats breakers limited verdict =>
    refine (hg.congr fun h hw => ?_).append _
    have hbefore := hasked leased h
    rw [verdict] at hbefore
    rcases hbefore hw with hbefore | hverdict
    · exact hbefore
    · cases hverdict
  | @guarded lease leased stats breakers hd probe limited verdict =>
    intro h hw
    have hbefore := hasked leased h
    rw [verdict] at hbefore
    rcases hbefore hw with hbefore | hverdict
    · exact hg.append _ h hbefore
    · cases hverdict
      exact ⟨_, List.mem_append_right live List.mem_cons_self, rfl⟩
  | @broken lease leased stats breakers hd state limited verdict =>
    refine (hg.congr fun h hw => ?_).append _
    have hbefore := hasked leased h
    rw [verdict] at hbefore
    rcases hbefore hw with hbefore | hverdict
    · exact hbefore
    · cases hverdict

theorem enter {gate : Gate} (hg : gate.breakers.Covered live) (identity : Identity) (draw : Float) :
    (gate.enter identity draw).2.breakers.Covered
      (live ++ (gate.enter identity draw).1.permit?.toList) := by
  cases hf : gate.clock.failing with
  | true =>
    rw [Gate.enter_of_failing hf]
    exact hg.append _
  | false =>
    rw [Gate.enter_of_working hf]
    exact hg.answer (gate.answer_enterAt identity gate.clock.now draw)

/-- Whoever gives a permit back has told the breaker whose probe it was. -/
theorem finish {gate : Gate} (hg : gate.breakers.Covered live) {n : Nat} {p : Permit}
    (hp : live[n]? = some p) (success : Option Bool) :
    (gate.finish p success).breakers.Covered (live.eraseIdx n) := by
  cases p with
  | untracked =>
    intro h ha
    obtain ⟨t, ht, hprobe⟩ := hg h ha
    exact ⟨t, mem_eraseIdx_of_ne hp ht Permit.noConfusion, hprobe⟩
  | tracked t =>
    rw [Gate.finish_tracked, Gate.finishAt_eq]
    intro h ha
    have hother : gate.breakers.Awaits h ∧ t.probed? ≠ some h := by
      cases hprobe : t.probed? with
      | none =>
        rw [hprobe] at ha
        exact ⟨ha, nofun⟩
      | some hd =>
        rw [hprobe] at ha
        obtain ⟨hbefore, hne⟩ := awaits_onProbeOutcome_iff.mp ha
        exact ⟨hbefore, fun heq => hne (Option.some.inj heq).symm⟩
    obtain ⟨u, hu, hprobe⟩ := hg h hother.1
    refine ⟨u, mem_eraseIdx_of_ne hp hu ?_, hprobe⟩
    intro heq
    cases heq
    exact hother.2 hprobe

theorem step {run : GateRun} (h : run.gate.breakers.Covered run.live) (event : GateEvent) :
    (run.step event).gate.breakers.Covered (run.step event).live := by
  cases event with
  | enter identity draw => exact h.enter identity draw
  | finish position success =>
    cases hp : run.live[position]? with
    | none =>
      rw [GateRun.step_finish_of_none hp]
      exact h
    | some p =>
      rw [GateRun.step_finish_of_some hp]
      exact h.finish hp success
  | rule raw => exact h.applyRule raw
  | evict now idleMs => exact h
  | setClock now => exact h
  | advanceClock ms => exact h
  | failClock => exact h

end Covered
end Registry

/-! ## Runs -/

namespace GateRun

theorem covered_after (book : RuleBook) (slotMs retained : Nat) (clock : Clock)
    (events : List GateEvent) :
    ((start book slotMs retained clock).after events).gate.breakers.Covered
      ((start book slotMs retained clock).after events).live :=
  after_of_step (I := fun run => run.gate.breakers.Covered run.live)
    (fun _ event h => h.step event) events (.ofBook book)

/-- **No breaker waits for a probe that nobody holds.** In every run, a breaker of the registry that
is in detective recovery is the breaker of a live permit that is its probe. With no permit out, none
is in detective recovery. -/
theorem waiting_breaker_has_probe (book : RuleBook) (slotMs retained : Nat) (clock : Clock)
    (events : List GateEvent) :
    let run := (start book slotMs retained clock).after events
    (∀ r b, run.gate.breakers.get? r = some b → b.phase.state = .resumeDetectively →
      ∃ h t, run.gate.breakers.breakers.handle? r = some h ∧ .tracked t ∈ run.live ∧
        t.probe = true ∧ t.breaker = some h) ∧
    (run.live = [] → ∀ r b, run.gate.breakers.get? r = some b →
      b.phase.state ≠ .resumeDetectively) := by
  intro run
  have hcovered : run.gate.breakers.Covered run.live :=
    covered_after book slotMs retained clock events
  have hprobe : ∀ r b, run.gate.breakers.get? r = some b → b.phase.state = .resumeDetectively →
      ∃ h t, run.gate.breakers.breakers.handle? r = some h ∧ .tracked t ∈ run.live ∧
        t.probe = true ∧ t.breaker = some h := by
    intro r b hb hwaits
    have hsome : (run.gate.breakers.breakers.handle? r).isSome := by
      rw [Roster.handle?_isSome]
      exact Option.isSome_of_eq_some hb
    obtain ⟨h, hh⟩ := Option.isSome_iff_exists.mp hsome
    obtain ⟨t, ht, hprobed⟩ := hcovered h ⟨b, (Roster.get?_of_handle? hh).trans hb, hwaits⟩
    rw [Tracked.probed?] at hprobed
    split at hprobed
    · exact ⟨h, t, hh, ht, ‹_›, hprobed⟩
    · cases hprobed
  refine ⟨hprobe, fun hnone r b hb hwaits => ?_⟩
  obtain ⟨-, t, -, ht, -⟩ := hprobe r b hb hwaits
  rw [hnone] at ht
  cases ht

/-- An error opens the breaker of a service. After its pause one request is let through, as the
probe that the breaker then waits for, and its outcome ends the wait. -/
theorem waiting_breaker_has_probe_once :
    let rule : DegradeRule :=
      { resource := .service "shop", strategy := .totalErrors 1, resume := .detective
        breakMs := 1000 }
    let book := RuleBook.ofChanges [.degrade (.upsert rule)]
    let request : GateEvent := .enter { service := "shop" } 0.5
    let probing := [request, .finish 0 (some false), request, .setClock 2000, request]
    let waiting := (start book 1000 10 { now := 0 }).after probing
    let settled := (start book 1000 10 { now := 0 }).after (probing ++ [.finish 0 none])
    (∃ h t, waiting.gate.breakers.breakers.handle? (.service "shop") = some h ∧
      .tracked t ∈ waiting.live ∧ t.probe = true ∧ t.breaker = some h) ∧
    ∀ r b, settled.gate.breakers.get? r = some b → b.phase.state ≠ .resumeDetectively := by
  intro rule book request probing waiting settled
  have hstate : (waiting.gate.breakers.get? (.service "shop")).map (·.phase.state) =
      some .resumeDetectively := by decide +kernel
  have hnone : settled.live.isEmpty = true := by decide +kernel
  obtain ⟨b, hb, hwaits⟩ := Option.map_eq_some_iff.mp hstate
  -- spelled out, the runs are compared by what is written and not by what they come to
  simp only [waiting, settled] at hb hnone ⊢
  obtain ⟨hprobe, -⟩ := waiting_breaker_has_probe book 1000 10 { now := 0 } probing
  obtain ⟨-, hsettled⟩ :=
    waiting_breaker_has_probe book 1000 10 { now := 0 } (probing ++ [.finish 0 none])
  exact ⟨hprobe _ b hb hwaits, hsettled (List.isEmpty_iff.mp hnone)⟩

end GateRun
end Floodgate
