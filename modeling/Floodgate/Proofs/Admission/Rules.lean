import Floodgate.Proofs.Admission.Run
import Floodgate.Proofs.Breaker.Registry
import Floodgate.Proofs.Rule.Loader

/-!
# The rules of a gate

A gate's rules change only through its loader, and the loader tells the breakers of each change of
the degrade rules. So in every run the breakers follow the rules. A change of the limit rules is
not told to the breakers and need not be: it makes a later book, but leaves the degrade rules as
they are.

`Gate.Ordered` is the invariant. `GateRun.breakers_follow_rules` says what it comes to, in terms of
breakers and rules alone.
-/

set_option autoImplicit false

namespace Floodgate

/-- A change of other rules is nothing to a registry. Its breakers have then seen an older version
than the book's, which does no harm: they run on the right rules. -/
theorem Registry.Follows.later {g : Registry} {book : RuleBook} (h : g.Follows book)
    (limits : RuleTable LimitRule) :
    g.Follows { book with version := book.version + 1, limits } where
  ruled hr := ⟨{ (h.ruled hr).toFiled with seen := Nat.le_succ_of_le (h.ruled hr).seen },
    (h.ruled hr).rule⟩
  served he hne := h.served he hne

namespace Gate

/-- The rules are consistent, and the breakers follow them. This is all that is kept of the past of
a gate, whichever documents it has been shown. -/
structure Ordered (g : Gate) : Prop where
  book : g.book.Consistent
  breakers : g.breakers.Follows g.book

namespace Ordered

variable {g g' : Gate}

/-- A gate that has just been made has a breaker for each enabled rule. -/
theorem new {book : RuleBook} (hb : book.Consistent) (stats : StatStore) (clock : Clock) :
    (Gate.new book stats clock).Ordered := ⟨hb, Registry.follows_ofBook hb⟩

theorem congr (h : g.Ordered) (hbook : g'.book = g.book) (hbreakers : g'.breakers = g.breakers) :
    g'.Ordered := ⟨hbook ▸ h.book, by rw [hbook, hbreakers]; exact h.breakers⟩

/-- **A document keeps the gate in order.** The listeners hear of every change of the degrade rules,
and of no other. -/
theorem applyRule (h : g.Ordered) (raw : RawRule) : (g.applyRule raw).2.Ordered := by
  unfold Gate.applyRule
  dsimp only
  rcases loader.apply_cases raw g.book g.breakers with ⟨book', hread, happly⟩ | ⟨-, happly⟩
  · rw [happly]
    have hconsistent := Loader.consistent_of_read? h.book hread
    refine ⟨hconsistent, ?_⟩
    rcases Loader.read?_eq_some_cases hread with ⟨hkind, limits, rfl⟩ | ⟨hkind, degrades, rfl⟩
    · -- the breakers are not told, and what they know of the rules is still so
      rw [hkind]
      exact h.breakers.later limits
    · rw [hkind]
      exact Registry.follows_reconcile (fun hr => (h.breakers.ruled hr).toFiled)
        (Nat.le_succ g.book.version) hconsistent
  · rw [happly]
    exact h

/-- A request may make a breaker for its service, which runs on the rule in force like the others.
-/
theorem answer {identity : Identity} {now : Nat} {draw : Float} {a : Admission} (h : g.Ordered)
    (ha : Answer g identity now draw a g') : g'.Ordered := by
  obtain ⟨hbook, -, hsame | ⟨leased, hasked⟩⟩ := ha.breakers_cases
  · exact h.congr hbook hsame
  · refine ⟨hbook ▸ h.book, ?_⟩
    rw [hbook, hasked]
    exact h.breakers.permit h.book leased identity now draw

theorem enter (h : g.Ordered) (identity : Identity) (draw : Float) :
    (g.enter identity draw).2.Ordered := by
  cases hf : g.clock.failing with
  | true =>
    rw [enter_of_failing hf]
    exact h.congr rfl rfl
  | false =>
    rw [enter_of_working hf]
    exact h.answer (g.answer_enterAt identity g.clock.now draw)

/-- A permit that comes back may move its breaker to another phase, but not to another rule. -/
theorem finish (h : g.Ordered) (p : Permit) (success : Option Bool) :
    (g.finish p success).Ordered := by
  cases p with
  | untracked => exact h
  | tracked t =>
    rw [finish_tracked, finishAt_eq]
    split
    · exact h.congr rfl rfl
    · exact ⟨h.book, h.breakers.onProbeOutcome _ _ _ _⟩

end Ordered
end Gate

/-! ## Runs -/

namespace GateRun

/-- All events keep the gate in order. Only documents need a proof of their own. -/
theorem ordered_step {run : GateRun} (h : run.gate.Ordered) (event : GateEvent) :
    (run.step event).gate.Ordered := by
  cases event with
  | enter identity draw => exact h.enter identity draw
  | finish position success =>
    cases hp : run.live[position]? with
    | none =>
      rw [step_finish_of_none hp]
      exact h
    | some p =>
      rw [step_finish_of_some hp]
      exact h.finish p success
  | rule raw => exact h.applyRule raw
  | evict now idleMs => exact h.congr rfl rfl
  | setClock now => exact h.congr rfl rfl
  | advanceClock ms => exact h.congr rfl rfl
  | failClock => exact h.congr rfl rfl

/-- **In every run the breakers follow the rules.** Every enabled degrade rule has a breaker at its
resource that runs on that very rule, but for the rule of the service default. Every breaker stands
at its own resource and runs on the enabled rule of that resource or, for a service without one, on
the enabled rule of the service default. At the service default there is none. -/
theorem breakers_follow_rules (changes : List RuleChange) (slotMs retained : Nat) (clock : Clock)
    (events : List GateEvent) :
    let gate := ((start (RuleBook.ofChanges changes) slotMs retained clock).after events).gate
    (∀ e ∈ gate.book.degrades.toList, e.rule.enabled = true → e.rule.resource ≠ .serviceDefault →
      ∃ b, gate.breakers.get? e.rule.resource = some b ∧
        b.resource = e.rule.resource ∧ b.edition = e) ∧
    (∀ r b, gate.breakers.get? r = some b → b.resource = r ∧
      (gate.book.degrades.enabled? r = some b.edition ∨
        (r.scope = .service ∧ gate.book.degrades.enabled? r = none ∧
          gate.book.defaultDegrade? = some b.edition))) ∧
    gate.breakers.get? .serviceDefault = none := by
  intro gate
  have hgate : gate.Ordered :=
    after_of_step (I := fun run => run.gate.Ordered) (fun _ event h => ordered_step h event) events
      (.new (RuleBook.consistent_ofChanges changes) _ clock)
  refine ⟨fun e he henabled hne => ?_, fun r b hr => ?_, ?_⟩
  · have hfound : gate.book.degrades.enabled? e.rule.resource = some e :=
      (RuleTable.mem_toList_enabled_iff hgate.book.degrades e).mp ⟨he, henabled⟩
    obtain ⟨b, hb⟩ := Option.isSome_iff_exists.mp (hgate.breakers.served hfound hne)
    have hruled := hgate.breakers.ruled hb
    have hrule := hruled.rule
    rw [RuleBook.inForce?_of_enabled? hfound] at hrule
    exact ⟨b, hb, hruled.own, (Option.some.inj hrule).symm⟩
  · have hruled := hgate.breakers.ruled hr
    exact ⟨hruled.own, RuleBook.inForce?_eq_some_iff.mp hruled.rule⟩
  · cases hr : gate.breakers.get? .serviceDefault with
    | none => rfl
    | some b => exact absurd rfl (hgate.breakers.ruled hr).place

/-- A service without a rule of its own: its first request makes it a breaker. -/
theorem breakers_follow_rules_derived :
    let rule : DegradeRule := { resource := .serviceDefault, strategy := .totalErrors 3 }
    let book := RuleBook.ofChanges [.degrade (.upsert rule)]
    let gate := ((start book 1000 10 { now := 0 }).after [.enter { service := "shop" } 0.5]).gate
    ∃ b, gate.breakers.get? (.service "shop") = some b ∧ b.resource = .service "shop" ∧
      gate.book.defaultDegrade? = some b.edition := by
  intro rule book gate
  have hmade : (gate.breakers.get? (.service "shop")).isSome := by decide +kernel
  have hnone : (gate.book.degrades.enabled? (.service "shop")).isSome = false := by decide +kernel
  obtain ⟨b, hb⟩ := Option.isSome_iff_exists.mp hmade
  -- spelled out, the run is compared by what is written and not by what it comes to
  simp only [gate, book] at hb hnone ⊢
  obtain ⟨-, hruled, -⟩ := breakers_follow_rules [.degrade (.upsert rule)] 1000 10 { now := 0 }
    [.enter { service := "shop" } 0.5]
  obtain ⟨hown, hrule | ⟨-, -, hdefault⟩⟩ := hruled (.service "shop") b hb
  · rw [hrule] at hnone
    cases hnone
  · exact ⟨b, hb, hown, hdefault⟩

end GateRun
end Floodgate
