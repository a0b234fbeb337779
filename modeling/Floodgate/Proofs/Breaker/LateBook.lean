import Floodgate.Proofs.Admission.Continuity

/-!
# A rule book that comes late

Two changes of the rules may reach the registry in the wrong order: first the newer book, then the
older one. A breaker that has seen the newer book does not take a rule of the older one
(`Breaker.update_of_lt`). But the registry knows no version of its own. It drops the breakers that
the late book has no rule for, and makes breakers for the rules that only the late book has.

So the late book changes nothing only if it asks for nothing. `get?_reconcile` says what a
reconciliation leaves at a resource, `get?_reconcile_late` what the late book leaves there, and
`late_book_is_ignored_iff` puts the two together: the late book is without effect exactly if every
resource has a rule of its own in both books or in neither, and the late book has a rule for the
service default as long as a breaker runs on one.
-/

set_option autoImplicit false

namespace Floodgate

theorem Breaker.update_of_lt {b : Breaker} {version : Nat} (h : version < b.version)
    (e : Edition DegradeRule) : (b.update e version).2 = b := by
  rw [update, if_pos h]

theorem Breaker.version_update_le (b : Breaker) (e : Edition DegradeRule) (version : Nat) :
    version ≤ (b.update e version).2.version := by
  unfold update
  split
  · rename_i h
    exact Nat.le_of_lt h
  · exact Nat.le_refl version

namespace Registry

variable {g : Registry} {book : RuleBook} {r : Resource} {b : Breaker}

/-! ## What a reconciliation leaves at a resource -/

/-- The breaker that a book makes at a resource that has none. -/
def made? (book : RuleBook) (r : Resource) : Option Breaker :=
  if r = .serviceDefault then none
  else (book.degrades.enabled? r).map fun e => ((Breaker.new r e).update e book.version).2

theorem version_of_made? (h : made? book r = some b) : b.version = book.version := by
  unfold made? at h
  split at h
  · cases h
  · obtain ⟨e, -, rfl⟩ := Option.map_eq_some_iff.mp h
    rw [Breaker.update_of_le (Nat.zero_le _)]

theorem made?_eq_none_iff :
    made? book r = none ↔ (r ≠ .serviceDefault → book.degrades.enabled? r = none) := by
  unfold made?
  split
  · rename_i hr
    exact iff_of_true rfl fun hne => absurd hr hne
  · rename_i hr
    rw [Option.map_eq_none_iff]
    exact ⟨fun h _ => h, fun h => h hr⟩

/-- Whether a rule is one that a breaker is made for at a resource. -/
def isMadeFor (r : Resource) (e : Edition DegradeRule) : Bool :=
  e.rule.enabled && decide (e.rule.resource = r ∧ r ≠ .serviceDefault)

theorem isMadeFor_iff {e : Edition DegradeRule} :
    isMadeFor r e = true ↔
      e.rule.enabled = true ∧ e.rule.resource = r ∧ r ≠ .serviceDefault := by
  rw [isMadeFor, Bool.and_eq_true, decide_eq_true_eq]

theorem get?_addFor (g : Registry) (version : Nat) (e : Edition DegradeRule) (r : Resource) :
    (addFor version g e).get? r =
      (g.get? r).or (if isMadeFor r e then some ((Breaker.new r e).update e version).2
        else none) := by
  rcases addFor_cases g version e with ⟨hskip, hserved⟩ | ⟨henabled, hne, hnone, hadd⟩
  · rw [hskip]
    split
    · rename_i h
      obtain ⟨henabled, rfl, hne⟩ := isMadeFor_iff.mp h
      rw [Option.or_of_isSome (hserved henabled hne)]
    · rw [Option.or_none]
  · rw [hadd, get?_installed]
    by_cases hr : r = e.rule.resource
    · subst hr
      rw [if_pos rfl, hnone, Option.none_or, if_pos (isMadeFor_iff.mpr ⟨henabled, rfl, hne⟩)]
    · rw [if_neg hr, if_neg fun h => hr (isMadeFor_iff.mp h).2.1.symm, Option.or_none]

theorem get?_foldl_addFor (version : Nat) (r : Resource) (es : List (Edition DegradeRule)) :
    ∀ g : Registry, (es.foldl (addFor version) g).get? r =
      (g.get? r).or ((es.find? (isMadeFor r)).map fun e =>
        ((Breaker.new r e).update e version).2) := by
  induction es with
  | nil => exact fun g => Option.or_none.symm
  | cons e es ih =>
    intro g
    rw [List.foldl_cons, ih, get?_addFor, Option.or_assoc, List.find?_cons]
    cases isMadeFor r e with
    | true => rfl
    | false => rfl

/-- Of the rules of a book, the one that is in force for a resource makes the breaker there. -/
theorem find?_isMadeFor (hb : book.Consistent) (hr : r ≠ .serviceDefault) :
    book.degrades.toList.find? (isMadeFor r) = book.degrades.enabled? r := by
  have hfound : ∀ e, e ∈ book.degrades.toList → isMadeFor r e = true →
      book.degrades.enabled? r = some e := by
    intro e hmem hmade
    obtain ⟨henabled, rfl, -⟩ := isMadeFor_iff.mp hmade
    exact (RuleTable.mem_toList_enabled_iff hb.degrades e).mp ⟨hmem, henabled⟩
  cases h : book.degrades.toList.find? (isMadeFor r) with
  | some e => exact (hfound e (List.mem_of_find?_eq_some h) (List.find?_some h)).symm
  | none =>
    cases he : book.degrades.enabled? r with
    | none => rfl
    | some e =>
      have hkey : e.rule.resource = r := hb.degrades.keyed_enabled he
      obtain ⟨hmem, henabled⟩ :=
        (RuleTable.mem_toList_enabled_iff hb.degrades e).mpr ((congrArg _ hkey).trans he)
      exact absurd (isMadeFor_iff.mpr ⟨henabled, hkey, hr⟩) (List.find?_eq_none.mp h e hmem)

/-- **What a reconciliation leaves at a resource**: the breaker that was there and has a rule to go
on with, or else the one that is made for a rule of its own. -/
theorem get?_reconcile (hb : book.Consistent) (g : Registry) (r : Resource) :
    (g.reconcile book).get? r = (((g.dropStale book).refresh book).get? r).or (made? book r) := by
  rw [reconcile, get?_foldl_addFor, made?]
  split
  · rename_i hr
    have hno : book.degrades.toList.find? (isMadeFor r) = none :=
      List.find?_eq_none.mpr fun e _ h => (isMadeFor_iff.mp h).2.2 hr
    rw [hno, Option.map_none]
  · rename_i hr
    rw [find?_isMadeFor hb hr]

/-! ## After the newer book -/

/-- Showing a breaker the rule that it goes on with leaves it derived from the service default, or
not. -/
theorem isDerived_update (hb : book.Consistent) {e : Edition DegradeRule}
    (he : ruleFor? book r b = some e) :
    isDerived r (b.update e book.version).2 = isDerived r b := by
  unfold Breaker.update
  split
  · rfl
  · unfold ruleFor? at he
    split at he
    · rename_i e' hown
      split at he
      · cases he
      · rename_i hderived
        cases he
        have hkey : e.rule.resource = r := hb.degrades.keyed_enabled hown
        rw [Bool.eq_false_iff.mpr hderived]
        exact bne_eq_false_iff_eq.mpr hkey
    · split at he
      · rename_i hderived
        rw [Bool.and_eq_true, decide_eq_true_eq] at hderived
        have hkey : e.rule.resource = .serviceDefault := hb.degrades.keyed_enabled he
        rw [hderived.1]
        refine bne_iff_ne.mpr fun heq => ?_
        have hat : r = .serviceDefault := Eq.trans heq.symm hkey
        have hscope := hderived.2
        rw [hat] at hscope
        cases hscope
      · cases he

/-- Whether a breaker has a rule to go on with, by where its rule comes from. -/
theorem ruleFor?_isSome_iff :
    (ruleFor? book r b).isSome ↔
      if isDerived r b then
        r.scope = .service ∧ book.degrades.enabled? r = none ∧ book.defaultDegrade?.isSome
      else (book.degrades.enabled? r).isSome := by
  unfold ruleFor?
  cases hown : book.degrades.enabled? r with
  | some e => cases isDerived r b <;> simp
  | none => by_cases hs : r.scope = .service <;> cases isDerived r b <;> simp [hs]

/-- **After a book**, the registry has a breaker with a rule of its own for every resource that has
one in the book, and for a resource without one only a breaker that runs on the service default. All
of them have seen the book. -/
theorem get?_reconcile_some (hb : book.Consistent) (h : (g.reconcile book).get? r = some b) :
    book.version ≤ b.version ∧
      if isDerived r b then r.scope = .service ∧ book.degrades.enabled? r = none
      else (book.degrades.enabled? r).isSome := by
  rw [get?_reconcile hb, Option.or_eq_some_iff] at h
  rcases h with hkept | ⟨-, hmade⟩
  · obtain ⟨b', e, -, he, rfl⟩ := get?_refresh_dropStale_eq_some_iff.mp hkept
    refine ⟨b'.version_update_le e book.version, ?_⟩
    have hrule := ruleFor?_isSome_iff.mp (Option.isSome_of_eq_some he)
    rw [isDerived_update hb he]
    cases hderived : isDerived r b' with
    | true =>
      rw [hderived] at hrule
      exact ⟨hrule.1, hrule.2.1⟩
    | false =>
      rw [hderived] at hrule
      exact hrule
  · refine ⟨(version_of_made? hmade).ge, ?_⟩
    unfold made? at hmade
    split at hmade
    · cases hmade
    · obtain ⟨e, he, rfl⟩ := Option.map_eq_some_iff.mp hmade
      have hkey : e.rule.resource = r := hb.degrades.keyed_enabled he
      have hown : isDerived r ((Breaker.new r e).update e book.version).2 = false := by
        rw [Breaker.update_of_le (Nat.zero_le _)]
        exact bne_eq_false_iff_eq.mpr hkey
      rw [hown, he]
      rfl

theorem own_iff_of_reconcile (hb : book.Consistent) (h : (g.reconcile book).get? r = some b) :
    (book.degrades.enabled? r).isSome ↔ isDerived r b = false := by
  have hrule := (get?_reconcile_some hb h).2
  cases hderived : isDerived r b with
  | true =>
    rw [hderived] at hrule
    simp [hrule.2]
  | false =>
    rw [hderived] at hrule
    exact iff_of_true hrule rfl

theorem get?_reconcile_isSome (hb : book.Consistent) (g : Registry) (hr : r ≠ .serviceDefault)
    (he : (book.degrades.enabled? r).isSome) : ((g.reconcile book).get? r).isSome := by
  have hmade : made? book r ≠ none := fun hnone => by
    rw [made?_eq_none_iff.mp hnone hr] at he
    cases he
  rw [get?_reconcile hb, Option.isSome_or, Option.isSome_iff_ne_none.mpr hmade, Bool.or_true]

/-! ## The late book -/

/-- **What a late book leaves at a resource.** No breaker takes a rule of it, as all have seen a
newer one. -/
theorem get?_reconcile_late (hb : book.Consistent)
    (hlate : ∀ {r b}, g.get? r = some b → book.version < b.version) (r : Resource) :
    (g.reconcile book).get? r =
      ((g.get? r).filter fun b => (ruleFor? book r b).isSome).or (made? book r) := by
  rw [get?_reconcile hb, get?_refresh, get?_dropStale]
  cases hr : g.get? r with
  | none => rfl
  | some b =>
    cases he : ruleFor? book r b with
    | none => simp [he, Option.filter_some]
    | some e => simp [he, Option.filter_some, Breaker.update_of_lt (hlate hr)]

/-- At one resource the late book is without effect exactly if it has a rule for the breaker there
to go on with, and makes none where there is none. -/
theorem get?_reconcile_late_eq_iff (hb : book.Consistent)
    (hlate : ∀ {r b}, g.get? r = some b → book.version < b.version) (r : Resource) :
    (g.reconcile book).get? r = g.get? r ↔
      (∀ b, g.get? r = some b → (ruleFor? book r b).isSome) ∧
        (g.get? r = none → made? book r = none) := by
  rw [get?_reconcile_late hb hlate]
  cases hr : g.get? r with
  | none => simp
  | some b =>
    by_cases hkept : (ruleFor? book r b).isSome
    · simp [hkept, Option.filter_some]
    · -- the breaker is dropped, and one that is made in its place has seen no newer book
      have hno : made? book r ≠ some b := fun hmade =>
        (version_of_made? hmade).not_gt (hlate hr)
      simp [hkept, Option.filter_some, hno]

/-- **At one resource**, after the newer book: the older one is without effect exactly if the
resource has a rule of its own in both books or in neither, and a breaker that needs the rule of the
service default finds one in the older book. -/
theorem get?_reconcile_older_eq_iff {old new : RuleBook} (hold : old.Consistent)
    (hnew : new.Consistent) (hversion : old.version < new.version) (g : Registry) (r : Resource) :
    ((g.reconcile new).reconcile old).get? r = (g.reconcile new).get? r ↔
      (r ≠ .serviceDefault →
        ((old.degrades.enabled? r).isSome ↔ (new.degrades.enabled? r).isSome)) ∧
      ∀ b, (g.reconcile new).get? r = some b → (isDerived r b = true ∨ r = .serviceDefault) →
        old.defaultDegrade?.isSome := by
  have hseen : ∀ {r b}, (g.reconcile new).get? r = some b → old.version < b.version := fun hr =>
    Nat.lt_of_lt_of_le hversion (get?_reconcile_some hnew hr).1
  rw [get?_reconcile_late_eq_iff hold hseen]
  cases hr : (g.reconcile new).get? r with
  | none =>
    -- the newer book has no rule for the resource, so the older one must not have any
    have hno : r ≠ .serviceDefault → ¬ (new.degrades.enabled? r).isSome := fun hne he => by
      have hserved := get?_reconcile_isSome hnew g hne he
      rw [hr] at hserved
      cases hserved
    simp only [reduceCtorEq, false_implies, implies_true, true_and, and_true, forall_const,
      made?_eq_none_iff]
    refine forall_congr' fun hne => ?_
    simp [hno hne]
  | some b =>
    have hrule := (get?_reconcile_some hnew hr).2
    simp only [Option.some.injEq, forall_eq', reduceCtorEq, false_implies, and_true, ne_eq,
      ruleFor?_isSome_iff, own_iff_of_reconcile hnew hr]
    cases hderived : isDerived r b with
    | true =>
      have hne : r ≠ .serviceDefault := by
        rintro rfl
        rw [hderived] at hrule
        cases hrule.1
      rw [hderived] at hrule
      simp [hrule.1, hne]
    | false =>
      by_cases hat : r = .serviceDefault
      · subst hat
        simp [RuleBook.defaultDegrade?]
      · simp [hat]

/-- **When a late book is ignored.** Of two books of one history, the newer comes first and the older
one after it. That leaves all breakers as they were, each of them the very same as before, exactly
if every resource but the service default has an enabled rule of its own in both books or in
neither, and the older book has one for the service default in case that a breaker runs on that
rule. No breaker ever stands at the service default itself, but it would count among those. -/
theorem late_book_is_ignored_iff (before later : List RuleChange) (g : Registry) :
    let old := RuleBook.ofChanges before
    let new := RuleBook.ofChanges (before ++ later)
    let current := g.reconcile new
    let late := current.reconcile old
    old.version < new.version →
      ((∀ r, late.get? r = current.get? r ∧
          late.breakers.handle? r = current.breakers.handle? r) ↔
        (∀ r, r ≠ .serviceDefault →
          ((old.degrades.enabled? r).isSome ↔ (new.degrades.enabled? r).isSome)) ∧
        ∀ r b, current.get? r = some b → (isDerived r b = true ∨ r = .serviceDefault) →
          old.defaultDegrade?.isSome) := by
  intro old new current late hversion
  have hold : old.Consistent := RuleBook.consistent_ofChanges before
  have hnew : new.Consistent := RuleBook.consistent_ofChanges (before ++ later)
  -- The condition splits by resource. That the handles agree follows from the breakers, as nothing
  -- is made anew where a breaker is kept.
  have hone := get?_reconcile_older_eq_iff hold hnew hversion g
  have hhandle : ∀ r, late.get? r = current.get? r →
      late.breakers.handle? r = current.breakers.handle? r := by
    intro r hsame
    cases hr : current.get? r with
    | none =>
      rw [(Roster.handle?_eq_none_iff _ r).mpr hr]
      exact (Roster.handle?_eq_none_iff _ r).mpr (hsame.trans hr)
    | some b =>
      have hseen : ∀ {r b}, current.get? r = some b → old.version < b.version := fun hr =>
        Nat.lt_of_lt_of_le hversion (get?_reconcile_some hnew hr).1
      have hrule := ((get?_reconcile_late_eq_iff hold hseen r).mp hsame).1 b hr
      exact (continues_of_ruleFor? hr hrule).handle
  rw [← forall_and]
  refine forall_congr' fun r => ?_
  rw [← hone r]
  exact ⟨And.left, fun hsame => ⟨hsame, hhandle r hsame⟩⟩

/-- A rule that is replaced between the books, beside a breaker that runs on the service default. The
late book neither gives the first one its rule of before nor takes the other out of service. -/
theorem late_book_is_ignored_iff_replaced :
    let rule : DegradeRule :=
      { resource := .service "s", strategy := .totalErrors 1, breakMs := 1000 }
    let before := [RuleChange.degrade (.upsert { rule with resource := .serviceDefault }),
      .degrade (.upsert rule)]
    let later := [RuleChange.degrade (.upsert { rule with breakMs := 7000 })]
    let old := RuleBook.ofChanges before
    let g := ((ofBook old).lookup old [.service "t", .serviceDefault, .global]).2
    let current := g.reconcile (RuleBook.ofChanges (before ++ later))
    let late := current.reconcile old
    g.size = 2 ∧ (late.get? (.service "s")).map (·.rule.breakMs) = some 7000 ∧
      (late.get? (.service "t")).map (·.rule.breakMs) = some 1000 := by
  intro rule before later old g current late
  have hresources : (old.degrades.toList.filter fun e => e.rule.enabled).map (·.rule.resource) =
      ((RuleBook.ofChanges (before ++ later)).degrades.toList.filter fun e => e.rule.enabled).map
        (·.rule.resource) := by
    decide +kernel
  have hboth : ∀ r, (old.degrades.enabled? r).isSome ↔
      ((RuleBook.ofChanges (before ++ later)).degrades.enabled? r).isSome := by
    intro r
    rw [RuleTable.enabled?_isSome_iff (RuleBook.consistent_ofChanges before).degrades,
      RuleTable.enabled?_isSome_iff (RuleBook.consistent_ofChanges (before ++ later)).degrades]
    exact (congrArg (r ∈ ·) hresources).to_iff
  have hdefault : old.defaultDegrade?.isSome = true := by decide +kernel
  have hsame := (late_book_is_ignored_iff before later g (by decide +kernel)).mpr
    ⟨fun r _ => hboth r, fun _ _ _ _ => hdefault⟩
  refine ⟨by decide +kernel, ?_, ?_⟩
  · exact (congrArg _ (hsame (.service "s")).1).trans (by decide +kernel)
  · exact (congrArg _ (hsame (.service "t")).1).trans (by decide +kernel)

/-- A rule that only the newer book has: the late book takes its breaker out of service. -/
theorem late_book_drops_breaker :
    let rule : DegradeRule :=
      { resource := .service "s", strategy := .totalErrors 1, breakMs := 1000
        resume := .detective }
    let old := RuleBook.ofChanges []
    let new := RuleBook.ofChanges [.degrade (.upsert rule)]
    let current := (ofBook old).reconcile new
    let late := current.reconcile old
    old.version < new.version ∧ ¬ ∀ r, late.get? r = current.get? r := by
  intro rule old new current late
  refine ⟨by decide +kernel, fun hsame => ?_⟩
  have hgone : (late.get? (.service "s")).isSome = false := by decide +kernel
  have hthere : (current.get? (.service "s")).isSome = true := by decide +kernel
  rw [hsame, hthere] at hgone
  cases hgone

end Registry
end Floodgate
