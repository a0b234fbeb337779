import Floodgate.Proofs.Admission.Rules
import Floodgate.Proofs.Rule.Documents

/-!
# What a rule document leaves alone

A registry that is brought in line with a new book drops the breakers whose rule is gone, shows the
others their rules, and makes new ones. `Registry.Continues` says of one resource that its breaker is
none of the dropped and none of the new: it is the same breaker before and after, in the same phase
and with the same rejections. Whether it goes on depends on its own resource alone. If that has its
own rule before and after, or before and after has none and takes that of the service default, then
the breaker goes on (`Registry.continues_reconcile`), whatever becomes of all other rules.

The first half is about a document that is applied twice. A rule put in force equals itself, as the
threshold in a document is a number, so the second time the table finds what it is asked for.
-/

set_option autoImplicit false

universe u

namespace Floodgate

/-! ## The same document again -/

/-- The change puts a rule in force. -/
def RuleChange.isUpsert : RuleChange → Bool
  | .rateLimit (.upsert _) | .degrade (.upsert _) => true
  | _ => false

theorem RuleTable.upsert?_again {R : Type} [Rule R] {t : RuleTable R} (ht : t.Consistent) {rule : R}
    (hself : (rule == rule) = true) (serial serial' : Nat) :
    ((t.upsert? serial rule).getD t).upsert? serial' rule = none := by
  rw [t.upsert?_eq]
  split
  · -- the rule was in force before
    rename_i hany
    rw [Option.getD_none, upsert?_eq, if_pos hany]
  · rw [Option.getD_some, upsert?_eq, get?_entered ht, if_pos rfl, Option.any_some, if_pos hself]

theorem RuleBook.change?_again {b : RuleBook} (hb : b.Consistent) {c : RuleChange}
    (hc : c.IsNumeric) (hup : c.isUpsert = true) : (b.after c).change? c = none := by
  cases c with
  | rateLimit u =>
    cases u with
    | delete id resource => cases hup
    | upsert rule =>
      rw [change?, changeLimit?, (b.after_rateLimit _).1]
      exact Option.map_eq_none_iff.mpr
        (RuleTable.upsert?_again hb.limits (beq_self_eq_true rule) _ _)
  | degrade u =>
    cases u with
    | delete id resource => cases hup
    | upsert rule =>
      rw [change?, changeDegrade?, (b.after_degrade _).1]
      exact Option.map_eq_none_iff.mpr
        (RuleTable.upsert?_again hb.degrades (degradeRule_beq_self hc) _ _)

namespace Loader

variable {book : RuleBook} {raw : RawRule}

/-- A document that puts a rule in force, applied to the book that it has made, asks for nothing. -/
theorem read?_again (hb : book.Consistent) (hup : ∀ c, raw.parse = .ok c → c.isUpsert = true) :
    read? ((read? book raw).getD book) raw = none := by
  cases hparse : raw.parse with
  | error e => simp only [read?, hparse]
  | ok c =>
    have hagain := RuleBook.change?_again hb (RawRule.isNumeric_of_parse hparse) (hup c hparse)
    simp only [read?, hparse]
    exact hagain

end Loader

namespace Gate

theorem book_applyRule (g : Gate) (raw : RawRule) :
    (g.applyRule raw).2.book = (Loader.read? g.book raw).getD g.book := by
  unfold applyRule Loader.apply
  cases h : Loader.read? g.book raw <;> rfl

theorem applyRule_of_read?_eq_none {g : Gate} {raw : RawRule}
    (h : Loader.read? g.book raw = none) : g.applyRule raw = (false, g) := by
  rw [applyRule, loader.apply_of_read?_eq_none h]

end Gate

/-! ## The breaker of one resource -/

/-- The degrade rule in force for a resource comes from the same place in both books: it is its own,
or that of the service default. -/
def RuleBook.SameOrigin (old new : RuleBook) (r : Resource) : Prop :=
  ((old.degrades.enabled? r).isSome ∧ (new.degrades.enabled? r).isSome) ∨
    (r.scope = .service ∧ old.degrades.enabled? r = none ∧ new.degrades.enabled? r = none ∧
      old.defaultDegrade?.isSome ∧ new.defaultDegrade?.isSome)

namespace Registry

/-- The breaker of a resource goes on. -/
structure Continues (g g' : Registry) (r : Resource) (b : Breaker) : Prop where
  handle : g'.breakers.handle? r = g.breakers.handle? r
  present : ∃ b', g'.get? r = some b' ∧ b'.phase = b.phase ∧ b'.rejections = b.rejections

namespace Continues

variable {g g' g'' : Registry} {r : Resource} {b : Breaker}

theorem refl (h : g.get? r = some b) : g.Continues g r b := ⟨rfl, b, h, rfl, rfl⟩

theorem trans (h : g.Continues g' r b) (h' : ∀ b', g'.get? r = some b' → g'.Continues g'' r b') :
    g.Continues g'' r b := by
  obtain ⟨b', hb', hphase, hrejections⟩ := h.present
  obtain ⟨b'', hb'', hphase', hrejections'⟩ := (h' b' hb').present
  exact ⟨(h' b' hb').handle.trans h.handle, b'', hb'', hphase'.trans hphase,
    hrejections'.trans hrejections⟩

end Continues

variable {g : Registry} {book book' : RuleBook} {r : Resource} {b : Breaker}

/-- A breaker that runs on the rule in force has a rule to go on with, if that comes from the same
place as before. -/
theorem ruleFor?_isSome (hb : book.Consistent) (hruled : Ruled book r b)
    (hs : book.SameOrigin book' r) : (ruleFor? book' r b).isSome := by
  have hrule := RuleBook.inForce?_eq_some_iff.mp hruled.rule
  rcases hs with ⟨hown, hown'⟩ | ⟨hscope, hnone, hnone', -, hdefault'⟩
  · obtain ⟨e', he'⟩ := Option.isSome_iff_exists.mp hown'
    have hderived : isDerived r b = false := by
      rcases hrule with hrule | ⟨-, hnone, -⟩
      · exact bne_eq_false_iff_eq.mpr (hb.degrades.keyed_enabled hrule)
      · rw [hnone] at hown
        cases hown
    rw [ruleFor?, he', hderived]
    rfl
  · have hderived : isDerived r b = true := by
      rcases hrule with hrule | ⟨-, -, hdefault⟩
      · rw [hrule] at hnone
        cases hnone
      · have hat : b.rule.resource = .serviceDefault := hb.degrades.keyed_enabled hdefault
        rw [isDerived, hat]
        exact bne_iff_ne.mpr fun heq => hruled.place heq.symm
    rw [ruleFor?, hnone', hderived, hscope]
    exact hdefault'

theorem continues_dropStale (hr : g.get? r = some b) (hrule : (ruleFor? book r b).isSome) :
    g.Continues (g.dropStale book) r b := by
  refine ⟨Roster.handle?_retain hr hrule, b, ?_, rfl, rfl⟩
  rw [get?_dropStale, hr, Option.filter_some, if_pos hrule]

theorem update_rejections (b : Breaker) (e : Edition DegradeRule) (version : Nat) :
    (b.update e version).2.rejections = b.rejections := by
  unfold Breaker.update
  split
  · rfl
  · rfl

/-- Showing the breakers their rules takes nothing from any. -/
theorem continues_refresh (hr : g.get? r = some b) : g.Continues (g.refresh book) r b := by
  refine ⟨Roster.handle?_modifyCurrent _ _ _, ?_⟩
  rw [get?_refresh, hr]
  cases hrule : ruleFor? book r b with
  | none => exact ⟨b, by simp only [Option.map_some, hrule], rfl, rfl⟩
  | some e =>
    exact ⟨_, by simp only [Option.map_some, hrule]; rfl, b.update_phase e _, update_rejections b e _⟩

theorem continues_addFor {version : Nat} (e : Edition DegradeRule) (hr : g.get? r = some b) :
    g.Continues (addFor version g e) r b := by
  rcases addFor_cases g version e with ⟨hskip, -⟩ | ⟨-, -, hnone, hadd⟩
  · rw [hskip]
    exact .refl hr
  · -- the new breaker stands where there was none
    have hne : r ≠ e.rule.resource := by
      rintro rfl
      rw [hnone] at hr
      cases hr
    rw [hadd]
    refine ⟨?_, b, ?_, rfl, rfl⟩
    · rw [Roster.handle?_install, if_neg hne]
    · rw [get?_installed, if_neg hne]
      exact hr

theorem continues_foldl_addFor {version : Nat} {es : List (Edition DegradeRule)} :
    ∀ {g : Registry} {b : Breaker}, g.get? r = some b →
      g.Continues (es.foldl (addFor version) g) r b := by
  induction es with
  | nil => exact .refl
  | cons e es ih => exact fun hr => (continues_addFor e hr).trans fun b' hb' => ih hb'

/-- A breaker goes on if it has a rule to go on with. -/
theorem continues_of_ruleFor? (hr : g.get? r = some b) (hrule : (ruleFor? book r b).isSome) :
    g.Continues (g.reconcile book) r b :=
  (continues_dropStale hr hrule).trans fun _ hdropped =>
    (continues_refresh hdropped).trans fun _ hrefreshed => continues_foldl_addFor hrefreshed

/-- **A breaker goes on** if the rule for its resource comes from the same place as before. -/
theorem continues_reconcile (hb : book.Consistent) (hg : g.Follows book)
    (hs : book.SameOrigin book' r) (hr : g.get? r = some b) :
    g.Continues (g.reconcile book') r b :=
  continues_of_ruleFor? hr (ruleFor?_isSome hb (hg.ruled hr) hs)

theorem continues_applyRule {gate : Gate} (hg : gate.Ordered) {raw : RawRule}
    (hs : gate.book.SameOrigin (gate.applyRule raw).2.book r)
    (hr : gate.breakers.get? r = some b) :
    gate.breakers.Continues (gate.applyRule raw).2.breakers r b := by
  unfold Gate.applyRule at hs ⊢
  dsimp only at hs ⊢
  rcases Gate.loader.apply_cases raw gate.book gate.breakers with
    ⟨book', -, happly⟩ | ⟨-, happly⟩
  · rw [happly] at hs ⊢
    cases hkind : raw.kind with
    | rateLimit => exact .refl hr
    | degrade => exact continues_reconcile hg.book hg.breakers hs hr
  · rw [happly]
    exact .refl hr

end Registry

/-! ## Runs -/

namespace GateRun

/-- **What a rule document leaves alone**, after any run. A breaker whose rule comes from the same
place before and after is the same breaker, in the same phase and with the same number of
rejections. And a document that puts a rule in force changes nothing when it is applied once more:
not the gate, and nothing that any listener knows. -/
theorem document_leaves_alone {σ : Type u} (l : Loader σ) (s : σ) (changes : List RuleChange)
    (slotMs retained : Nat) (clock : Clock) (events : List GateEvent) (raw : RawRule) :
    let gate := ((start (RuleBook.ofChanges changes) slotMs retained clock).after events).gate
    let next := (gate.applyRule raw).2
    (∀ r b, gate.breakers.get? r = some b → gate.book.SameOrigin next.book r →
      ∃ b', next.breakers.get? r = some b' ∧
        next.breakers.breakers.handle? r = gate.breakers.breakers.handle? r ∧
        b'.phase = b.phase ∧ b'.rejectCount = b.rejectCount) ∧
    ((∀ c, raw.parse = .ok c → c.isUpsert = true) →
      next.applyRule raw = (false, next) ∧ l.apply raw (next.book, s) = (false, next.book, s)) := by
  intro gate next
  have hgate : gate.Ordered :=
    after_of_step (I := fun run => run.gate.Ordered) (fun _ event h => ordered_step h event) events
      (.new (RuleBook.consistent_ofChanges changes) _ clock)
  refine ⟨fun r b hr hs => ?_, fun hup => ?_⟩
  · obtain ⟨hhandle, b', hb', hphase, hrejections⟩ := Registry.continues_applyRule hgate hs hr
    refine ⟨b', hb', hhandle, hphase, ?_⟩
    rw [Breaker.rejectCount, Breaker.rejectCount, Breaker.rejectionsIn, Breaker.rejectionsIn,
      hphase, hrejections]
  · have hnone : Loader.read? next.book raw = none := by
      rw [gate.book_applyRule raw]
      exact Loader.read?_again hgate.book hup
    exact ⟨Gate.applyRule_of_read?_eq_none hnone, l.apply_of_read?_eq_none hnone s⟩

/-- An open breaker, and a document that takes the id of another rule for its resource: that rule is
gone, and the breaker stays open. -/
theorem document_leaves_alone_open :
    let shop : DegradeRule := { resource := .service "shop", strategy := .totalErrors 1 }
    let bank : DegradeRule :=
      { id := some 7, resource := .service "bank", strategy := .totalErrors 1 }
    let changes := [.degrade (.upsert shop), .degrade (.upsert bank)]
    let request : GateEvent := .enter { service := "shop" } 0.5
    let gate := ((start (RuleBook.ofChanges changes) 1000 10 { now := 0 }).after
      [request, .finish 0 (some false), request]).gate
    let raw : RawRule :=
      { kind := .degrade
        document := .obj [("id", .int 7), ("type", .int 2), ("service", .str "shop"),
          ("strategy", .int 2), ("exceptionCount", .int 9), ("timeWindow", .int 60),
          ("statInterval", .int 10)] }
    let next := (gate.applyRule raw).2
    (∃ b, next.breakers.get? (.service "shop") = some b ∧ b.phase.state = .open ∧
      b.rejectCount = 1) ∧
    (next.breakers.get? (.service "bank")).isNone ∧ next.applyRule raw = (false, next) := by
  intro shop bank changes request gate raw next
  have hopen : (gate.breakers.get? (.service "shop")).map (fun b => (b.phase.state, b.rejectCount)) =
      some (.open, 1) := by decide +kernel
  have hown : (gate.book.degrades.enabled? (.service "shop")).isSome = true ∧
      (next.book.degrades.enabled? (.service "shop")).isSome = true := by decide +kernel
  have hgone : (next.breakers.get? (.service "bank")).isNone = true := by decide +kernel
  have hup : raw.parse.toOption.all RuleChange.isUpsert = true := by decide +kernel
  obtain ⟨b, hb, hphase⟩ := Option.map_eq_some_iff.mp hopen
  obtain ⟨hstate, hcount⟩ := Prod.mk.inj hphase
  -- spelled out, the gate is compared by what is written and not by what it comes to
  simp only [gate, next] at hb hown hgone ⊢
  obtain ⟨hkept, hagain⟩ := document_leaves_alone Gate.loader gate.breakers changes 1000 10
    { now := 0 } [request, .finish 0 (some false), request] raw
  obtain ⟨b', hb', -, hphase', hcount'⟩ := hkept _ b hb (Or.inl hown)
  refine ⟨⟨b', hb', hphase' ▸ hstate, hcount'.trans hcount⟩, hgone, (hagain fun c hc => ?_).1⟩
  rw [hc] at hup
  exact hup

end GateRun
end Floodgate
