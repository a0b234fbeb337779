import Floodgate.Breaker.Registry
import Floodgate.Proofs.Breaker.Run
import Floodgate.Proofs.Handles
import Floodgate.Proofs.Rule.Lookup

/-!
# Breakers follow the rules

`Registry.Follows` says of a registry what it should be to a rule book: every breaker stands at its
own resource and runs on the rule in force for it, every resource with an enabled rule of its own has
a breaker, and the service default has none. The operations of a registry are taken one after
another. First come their views by resource, then what they keep:

* `follows_reconcile`: the registry follows any book that it is brought in line with, whatever rules
  its breakers ran on before. They must only stand where they belong, and have seen no later book.
* `Follows.lookup`: a breaker that is made for a request runs on the rule in force as well.
* `Follows.modify`: what requests and probes do to a breaker is none of the rules' business.
-/

set_option autoImplicit false

namespace Floodgate
namespace Registry

variable {g : Registry} {book : RuleBook}

/-! ## Views -/

theorem get?_dropStale (g : Registry) (book : RuleBook) (r : Resource) :
    (g.dropStale book).get? r = (g.get? r).filter fun b => (ruleFor? book r b).isSome :=
  g.breakers.current?_retain _ r

theorem get?_refresh (g : Registry) (book : RuleBook) (r : Resource) :
    (g.refresh book).get? r = (g.get? r).map fun b =>
      match ruleFor? book r b with
      | some e => (b.update e book.version).2
      | none => b := g.breakers.current?_modifyCurrent _ r

/-- The breakers that stay in service are those that have a rule to go on with, and they go on with
it. Between the two steps a breaker may run on a rule that is no longer in force, but nobody asks it
then. -/
theorem get?_refresh_dropStale_eq_some_iff {r : Resource} {b : Breaker} :
    ((g.dropStale book).refresh book).get? r = some b ↔
      ∃ b' e, g.get? r = some b' ∧ ruleFor? book r b' = some e ∧
        (b'.update e book.version).2 = b := by
  rw [get?_refresh, get?_dropStale]
  cases h : g.get? r with
  | none => simp
  | some b' => cases he : ruleFor? book r b' <;> simp [he, Option.filter_some]

/-- The breaker for a rule is installed if the rule is enabled, and its resource is not the service
default and has no breaker yet. A breaker that is there was refreshed before and need not be
touched. -/
theorem addFor_cases (g : Registry) (version : Nat) (e : Edition DegradeRule) :
    (addFor version g e = g ∧ (e.rule.enabled = true → e.rule.resource ≠ .serviceDefault →
      (g.get? e.rule.resource).isSome)) ∨
    (e.rule.enabled = true ∧ e.rule.resource ≠ .serviceDefault ∧
      g.get? e.rule.resource = none ∧
      addFor version g e =
        { breakers := g.breakers.install e.rule.resource
            ((Breaker.new e.rule.resource e).update e version).2 }) := by
  have hd : e.rule.resource.scope = .serviceDefault ↔ e.rule.resource = .serviceDefault :=
    ⟨Resource.eq_serviceDefault_of_scope, fun h => by rw [h]; rfl⟩
  unfold addFor
  dsimp only
  split
  · rename_i hskip
    simp only [Bool.or_eq_true, Bool.not_eq_true', decide_eq_true_eq, hd] at hskip
    refine Or.inl ⟨rfl, fun henabled hne => ?_⟩
    -- passed over for one of three reasons: not enabled, the service default, a breaker that is
    -- there
    rcases hskip with (hskip | hskip) | hskip
    · rw [henabled] at hskip
      cases hskip
    · exact absurd hskip hne
    · exact hskip
  · rename_i hadd
    simp only [Bool.or_eq_true, Bool.not_eq_true', decide_eq_true_eq, not_or, hd,
      Bool.not_eq_false, Option.not_isSome_iff_eq_none] at hadd
    obtain ⟨⟨henabled, hne⟩, hnone⟩ := hadd
    exact Or.inr ⟨henabled, hne, hnone, rfl⟩

/-! ## The rule that a breaker goes on with -/

/-- The rule that a breaker goes on with is the one in force, whether it is of its own or derived
from the service default. -/
theorem inForce?_of_ruleFor? {r : Resource} {b : Breaker} {e : Edition DegradeRule}
    (h : ruleFor? book r b = some e) : book.inForce? r = some e := by
  rw [RuleBook.inForce?_eq_some_iff]
  unfold ruleFor? at h
  split at h
  · rename_i e' he
    split at h
    · cases h
    · cases h
      exact Or.inl he
  · rename_i hnone
    split at h
    · rename_i hderived
      rw [Bool.and_eq_true, decide_eq_true_eq] at hderived
      exact Or.inr ⟨hderived.2, hnone, h⟩
    · cases h

/-! ## What a registry should be -/

/-- A breaker stands where it belongs, not at the service default, and has seen no book later than a
version. This is what is left of a breaker's good order while the book changes. -/
structure Filed (version : Nat) (r : Resource) (b : Breaker) : Prop where
  own : b.resource = r
  place : r ≠ .serviceDefault
  seen : b.version ≤ version

/-- Moreover it runs on the rule in force there. -/
structure Ruled (book : RuleBook) (r : Resource) (b : Breaker) : Prop
    extends Filed book.version r b where
  rule : book.inForce? r = some b.edition

/-- All breakers run on the rules in force, and every resource with an enabled rule of its own has
one, but for the service default. Services that the default alone applies to get theirs when they
are first asked for. -/
structure Follows (g : Registry) (book : RuleBook) : Prop where
  ruled : ∀ {r b}, g.get? r = some b → Ruled book r b
  served : ∀ {r e}, book.degrades.enabled? r = some e → r ≠ .serviceDefault → (g.get? r).isSome

theorem get?_empty (r : Resource) : ({} : Registry).get? r = none := rfl

/-- A breaker that is shown the rule in force runs on it, unless it has seen a later book. -/
theorem Filed.update {version : Nat} {r : Resource} {b : Breaker} {e : Edition DegradeRule}
    (h : Filed version r b) (hle : version ≤ book.version) (he : book.inForce? r = some e) :
    Ruled book r (b.update e book.version).2 := by
  rw [Breaker.update_of_le (Nat.le_trans h.seen hle)]
  exact ⟨⟨h.own, h.place, Nat.le_refl book.version⟩, he⟩

theorem filed_new {r : Resource} (hr : r ≠ .serviceDefault) (e : Edition DegradeRule)
    (version : Nat) : Filed version r (Breaker.new r e) := ⟨rfl, hr, Nat.zero_le version⟩

/-! ## Following a new book -/

/-- After both steps every breaker that is left runs on the rule in force. -/
theorem ruled_refresh {version : Nat} (h : ∀ {r b}, g.get? r = some b → Filed version r b)
    (hle : version ≤ book.version) {r : Resource} {b : Breaker}
    (hb : ((g.dropStale book).refresh book).get? r = some b) : Ruled book r b := by
  obtain ⟨b', e, hb', he, rfl⟩ := get?_refresh_dropStale_eq_some_iff.mp hb
  exact (h hb').update hle (inForce?_of_ruleFor? he)

theorem get?_installed (g : Registry) (r r' : Resource) (b : Breaker) :
    ({ breakers := g.breakers.install r b } : Registry).get? r' =
      if r' = r then some b else g.get? r' := g.breakers.current?_install r r' b

/-- A breaker that is made for a rule of the book runs on it, since no other rule of the book is for
the same resource. -/
theorem ruled_addFor {e : Edition DegradeRule} (hb : book.Consistent)
    (he : e ∈ book.degrades.toList) (h : ∀ {r b}, g.get? r = some b → Ruled book r b)
    {r : Resource} {b : Breaker} (hr : (addFor book.version g e).get? r = some b) :
    Ruled book r b := by
  rcases addFor_cases g book.version e with ⟨hskip, -⟩ | ⟨henabled, hne, -, hadd⟩
  · rw [hskip] at hr
    exact h hr
  · rw [hadd, get?_installed] at hr
    split at hr
    · rename_i hat
      subst hat
      cases hr
      -- of all rules, it is the one that is found at its resource
      have hfound : book.degrades.enabled? e.rule.resource = some e :=
        (RuleTable.mem_toList_enabled_iff hb.degrades e).mp ⟨he, henabled⟩
      exact (filed_new hne e book.version).update (Nat.le_refl _)
        (RuleBook.inForce?_of_enabled? hfound)
    · exact h hr

theorem ruled_foldl_addFor {es : List (Edition DegradeRule)} (hb : book.Consistent)
    (hes : ∀ e ∈ es, e ∈ book.degrades.toList) :
    ∀ {g : Registry}, (∀ {r b}, g.get? r = some b → Ruled book r b) →
      ∀ {r b}, (es.foldl (addFor book.version) g).get? r = some b → Ruled book r b := by
  induction es with
  | nil => exact id
  | cons e es ih =>
    intro g h
    exact ih (fun e' he' => hes e' (List.mem_cons_of_mem e he'))
      (ruled_addFor hb (hes e List.mem_cons_self) h)

theorem get?_isSome_addFor {version : Nat} {e : Edition DegradeRule} {r : Resource}
    (h : (g.get? r).isSome ∨
      (r = e.rule.resource ∧ e.rule.enabled = true ∧ r ≠ .serviceDefault)) :
    ((addFor version g e).get? r).isSome := by
  rcases addFor_cases g version e with ⟨hskip, hserved⟩ | ⟨-, -, -, hadd⟩
  · rw [hskip]
    rcases h with h | ⟨rfl, henabled, hne⟩
    · exact h
    · exact hserved henabled hne
  · rw [hadd, get?_installed]
    split
    · rfl
    · rename_i hr
      rcases h with h | ⟨rfl, -⟩
      · exact h
      · exact absurd rfl hr

/-- Once a resource has a breaker it keeps it while the others are made. -/
theorem get?_isSome_foldl_addFor {version : Nat} {es : List (Edition DegradeRule)} {r : Resource} :
    ∀ {g : Registry}, ((g.get? r).isSome ∨
      ∃ e ∈ es, r = e.rule.resource ∧ e.rule.enabled = true ∧ r ≠ .serviceDefault) →
      ((es.foldl (addFor version) g).get? r).isSome := by
  induction es with
  | nil =>
    rintro g (h | ⟨e, he, -⟩)
    · exact h
    · cases he
  | cons e' es ih =>
    rintro g (h | ⟨e, he, hr⟩)
    · exact ih (Or.inl (get?_isSome_addFor (Or.inl h)))
    · rcases List.mem_cons.mp he with rfl | he
      · exact ih (Or.inl (get?_isSome_addFor (Or.inr hr)))
      · exact ih (Or.inr ⟨e, he, hr⟩)

/-- **A registry follows every book that it is brought in line with**, unless it has seen a later
one. Nothing is asked of the rules that its breakers ran on before. -/
theorem follows_reconcile {version : Nat} (h : ∀ {r b}, g.get? r = some b → Filed version r b)
    (hle : version ≤ book.version) (hb : book.Consistent) : (g.reconcile book).Follows book where
  ruled hr := ruled_foldl_addFor hb (fun _ he => he) (ruled_refresh h hle) hr
  served {r e} he hne := by
    have hkey : e.rule.resource = r := hb.degrades.keyed_enabled he
    subst hkey
    obtain ⟨hmem, henabled⟩ := (RuleTable.mem_toList_enabled_iff hb.degrades e).mpr he
    exact get?_isSome_foldl_addFor (Or.inr ⟨e, hmem, rfl, henabled, hne⟩)

theorem follows_ofBook (hb : book.Consistent) : (ofBook book).Follows book :=
  follows_reconcile (fun {r _} h => by cases (get?_empty r).symm.trans h) (Nat.le_refl book.version)
    hb

/-! ## Requests and probes -/

/-- The breakers with one for a resource, which is made for a rule if need be. It is made where the
request is bound to, which for a rule of the service default is the service. -/
def withOne (g : Registry) (r : Resource) (e : Edition DegradeRule) : Roster Resource Breaker :=
  if (g.get? r).isSome then g.breakers else g.breakers.install r (Breaker.new r e)

theorem current?_withOne (g : Registry) (r : Resource) (e : Edition DegradeRule) (r' : Resource) :
    (g.withOne r e).current? r' =
      if r' = r then some ((g.get? r).getD (Breaker.new r e)) else g.get? r' := by
  unfold withOne
  cases h : g.get? r with
  | some b =>
    by_cases hr : r' = r
    · subst hr
      rw [if_pos rfl, Option.getD_some]
      exact h
    · rw [if_neg hr]
      rfl
  | none => exact g.breakers.current?_install r r' (Breaker.new r e)

theorem lookup_eq {candidates : List Resource} {e : Edition DegradeRule} {h : Handle Resource}
    (he : book.degrades.firstEnabled? candidates = some e)
    (hh : (g.withOne (e.rule.resource.bind candidates) e).handle?
      (e.rule.resource.bind candidates) = some h) :
    g.lookup book candidates =
      (some h,
        { breakers := (g.withOne (e.rule.resource.bind candidates) e).modify h fun b =>
            (b.update e book.version).2 }) := by
  unfold lookup
  unfold withOne at hh ⊢
  rw [he]
  dsimp only
  rw [hh]

theorem handle?_withOne_isSome (g : Registry) (r : Resource) (e : Edition DegradeRule) :
    ((g.withOne r e).handle? r).isSome := by
  rw [Roster.handle?_isSome, current?_withOne, if_pos rfl]
  rfl

/-- Looking a breaker up shows the one that is found its rule, and is nothing to the others. The
rule may be newer than the one it ran on. -/
theorem get?_lookup (g : Registry) {candidates : List Resource} {e : Edition DegradeRule}
    (he : book.degrades.firstEnabled? candidates = some e) (r : Resource) :
    let bound := e.rule.resource.bind candidates
    (g.lookup book candidates).2.get? r =
      if r = bound then some (((g.get? bound).getD (Breaker.new bound e)).update e book.version).2
      else g.get? r := by
  intro bound
  obtain ⟨h, hh⟩ := Option.isSome_iff_exists.mp (g.handle?_withOne_isSome bound e)
  rw [lookup_eq he hh, get?, Roster.current?_modify_of_handle? hh]
  by_cases hr : r = bound
  · subst hr
    rw [if_pos rfl, if_pos rfl, current?_withOne, if_pos rfl, Option.map_some]
  · rw [if_neg hr, if_neg hr, current?_withOne, if_neg hr]

/-- What can come of a request: no rule applies to it, or the breaker at the resource that it is
bound to decides it. In the second case the breaker has been looked up, and its handle is the one
that the permit will bear. -/
theorem permit_cases (g : Registry) (book : RuleBook) (stats : StatStore)
    (candidates : List Resource) (now : Nat) (draw : Float) :
    (book.degrades.firstEnabled? candidates = none ∧
      g.permit book stats candidates now draw = (.unrestricted, g, stats)) ∨
    ∃ e h b, book.degrades.firstEnabled? candidates = some e ∧
      let bound := e.rule.resource.bind candidates
      let asked := (g.lookup book candidates).2
      (g.withOne bound e).handle? bound = some h ∧ asked.breakers.handle? bound = some h ∧
        asked.held? h = some b ∧ asked.get? bound = some b ∧
        g.permit book stats candidates now draw = asked.permitBy h b stats now draw := by
  cases he : book.degrades.firstEnabled? candidates with
  | none => exact Or.inl ⟨rfl, by simp [permit, lookup, he]⟩
  | some e =>
    obtain ⟨h, hh⟩ := Option.isSome_iff_exists.mp
      (g.handle?_withOne_isSome (e.rule.resource.bind candidates) e)
    have hlookup := lookup_eq he hh
    have hview := g.get?_lookup he (e.rule.resource.bind candidates)
    dsimp only at hview
    rw [if_pos rfl] at hview
    -- the rule is shown to the breaker through its handle, which leaves the handle as it was
    have hasked : (g.lookup book candidates).2.breakers.handle? (e.rule.resource.bind candidates) =
        some h := by
      rw [hlookup, Roster.handle?_modify]
      exact hh
    have hheld := (Roster.get?_of_handle? hasked).trans hview
    refine Or.inr ⟨e, h, _, rfl, hh, hasked, hheld, hview, ?_⟩
    have hfst : (g.lookup book candidates).1 = some h := by rw [hlookup]
    simp only [permit, hfst, Option.bind_some]
    rw [show (g.lookup book candidates).2.held? h = some _ from hheld]
    rfl

/-- A breaker that is made for a request runs on the rule in force, like all others. -/
theorem Follows.lookup (h : g.Follows book) (hb : book.Consistent) (i : Identity) :
    (g.lookup book i.candidates).2.Follows book := by
  cases he : book.degrades.firstEnabled? i.candidates with
  | none =>
    unfold Registry.lookup
    rw [he]
    exact h
  | some e =>
    obtain ⟨hrule, hne⟩ := RuleBook.inForce?_bind hb he
    have hview := g.get?_lookup he
    dsimp only at hview
    generalize e.rule.resource.bind i.candidates = bound at hrule hne hview
    -- a breaker that was there, or one that has just been made
    have hfound : Filed book.version bound ((g.get? bound).getD (Breaker.new bound e)) := by
      cases hg : g.get? bound with
      | none => exact filed_new hne e book.version
      | some b => exact (h.ruled hg).toFiled
    refine ⟨fun {r b} hr => ?_, fun {r e'} he' hne' => ?_⟩
    · rw [hview] at hr
      split at hr
      · rename_i hat
        subst hat
        cases hr
        exact hfound.update (Nat.le_refl _) hrule
      · exact h.ruled hr
    · rw [hview]
      split
      · rfl
      · exact h.served he' hne'

/-- A change of the breaker behind a handle that leaves it its resource and its rule is nothing to
the rules, whether the breaker is still in service or not. -/
theorem Follows.modify (h : g.Follows book) {hd : Handle Resource} {b b' : Breaker}
    (hb : g.held? hd = some b)
    (hkept : b'.resource = b.resource ∧ b'.edition = b.edition ∧ b'.version = b.version) :
    ({ breakers := g.breakers.modify hd fun _ => b' } : Registry).Follows book := by
  have hview : ∀ r, ({ breakers := g.breakers.modify hd fun _ => b' } : Registry).get? r =
      if g.breakers.handle? r = some hd then (g.get? r).map fun _ => b' else g.get? r :=
    g.breakers.current?_modify hd fun _ => b'
  refine ⟨fun {r c} hc => ?_, fun {r e} he hne => ?_⟩
  · rw [hview] at hc
    split at hc
    · -- the handle is that of the present breaker, so it is this one that has changed
      rename_i hr
      have hcurrent : g.get? r = some b := (Roster.get?_of_handle? hr).symm.trans hb
      rw [hcurrent] at hc
      cases hc
      obtain ⟨hresource, hedition, hversion⟩ := hkept
      have hruled := h.ruled hcurrent
      exact ⟨⟨hresource.trans hruled.own, hruled.place, hversion ▸ hruled.seen⟩,
        hedition ▸ hruled.rule⟩
    · exact h.ruled hc
  · have hserved := h.served he hne
    rw [hview]
    split
    · rw [Option.isSome_map]
      exact hserved
    · exact hserved

theorem Follows.permitBy (h : g.Follows book) {hd : Handle Resource} {b : Breaker}
    (hb : g.held? hd = some b) (stats : StatStore) (now : Nat) (draw : Float) :
    (g.permitBy hd b stats now draw).2.1.Follows book := by
  have hmodified := h.modify hb (b.permit_rule stats now draw)
  unfold Registry.permitBy
  dsimp only
  split
  · exact hmodified
  · exact hmodified
  · exact hmodified

theorem Follows.permit (h : g.Follows book) (hb : book.Consistent) (stats : StatStore)
    (i : Identity) (now : Nat) (draw : Float) :
    (g.permit book stats i.candidates now draw).2.1.Follows book := by
  have hlookup := h.lookup hb i
  unfold Registry.permit
  dsimp only
  split
  · rename_i hd b hfound
    obtain ⟨hd', -, hheld⟩ := Option.bind_eq_some_iff.mp hfound
    obtain ⟨b', hb', heq⟩ := Option.map_eq_some_iff.mp hheld
    cases heq
    exact hlookup.permitBy hb' stats now draw
  · dsimp only
    exact hlookup

theorem Follows.onProbeOutcome (h : g.Follows book) (hd : Handle Resource) (success : Bool)
    (stats : StatStore) (now : Nat) :
    (g.onProbeOutcome hd success stats now).1.Follows book := by
  unfold Registry.onProbeOutcome
  split
  · rename_i b hb
    exact h.modify hb (b.onProbeOutcome_rule success stats now)
  · exact h

end Registry
end Floodgate
