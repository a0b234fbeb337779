import Floodgate.Proofs.Rule.Members

/-!
# The order of documents

Documents that put rules in force one after another may get into each other's way: a rule drives out
what is for its resource or of its id. Where no two of the documents compete for a resource or an id
(`AreCompatible`), their order does not matter. Not that the books between would be the same. A rule
whose id moves to another resource is driven out by whichever document comes first, the one for its
resource or the one of its id, and is replaced in one order and removed in the other.

Both results are therefore told without the books between. The rules at the end are those of the
documents and those from before that compete with none of them (`Loader.mem_rules_applyAll`). And a
document takes effect exactly if its rule was not in force at the beginning, for no other document
puts it in force or drives it out (`Loader.count_applyAll`).
-/

set_option autoImplicit false

universe u

namespace Floodgate

/-! ## Rules that do not compete -/

namespace Rule

variable {R : Type} [Rule R]

/-- No resource and no id belongs to two of the rules. -/
structure AreDistinct (rules : List R) : Prop where
  resources : (rules.map Rule.resource).Nodup
  ids : (rules.filterMap Rule.id).Nodup

theorem competes_eq_false_iff {a b : R} :
    competes a b = false ↔
      Rule.resource a ≠ Rule.resource b ∧ ∀ i, Rule.id a = some i → Rule.id b ≠ some i := by
  rw [competes, Bool.or_eq_false_iff, decide_eq_false_iff_not]
  refine and_congr_right fun _ => ?_
  cases hb : Rule.id b with
  | none => simp
  | some i =>
    rw [hasId_some, decide_eq_false_iff_not]
    exact ⟨fun hne j ha e => hne (ha.trans e.symm), fun h ha => h i ha rfl⟩

theorem competes_self (a : R) : competes a a = true := by simp [competes]

theorem competes_comm (a b : R) : competes a b = competes b a := by
  rw [Bool.eq_iff_iff, ← Bool.not_eq_false, ← Bool.not_eq_false (competes b a), not_iff_not,
    competes_eq_false_iff, competes_eq_false_iff]
  exact and_congr ne_comm ⟨fun h i hb ha => h i ha hb, fun h i ha hb => h i hb ha⟩

theorem AreDistinct.pairwise {rules : List R} (h : AreDistinct rules) :
    rules.Pairwise fun a b => competes a b = false := by
  have hresources : rules.Pairwise fun a b => Rule.resource a ≠ Rule.resource b :=
    List.pairwise_map.mp h.resources
  have hids := List.pairwise_filterMap.mp h.ids
  refine (hresources.and hids).imp fun {a b} hab => competes_eq_false_iff.mpr ⟨hab.1, ?_⟩
  exact fun i ha hb => hab.2 i ha i hb rfl

theorem AreDistinct.perm {rules rules' : List R} (h : AreDistinct rules)
    (hperm : rules.Perm rules') : AreDistinct rules' where
  resources := (hperm.map _).nodup_iff.mp h.resources
  ids := (hperm.filterMap _).nodup_iff.mp h.ids

theorem AreDistinct.sublist {rules rules' : List R} (h : AreDistinct rules)
    (hsub : rules'.Sublist rules) : AreDistinct rules' where
  resources := h.resources.sublist (hsub.map _)
  ids := h.ids.sublist (hsub.filterMap _)

/-- Putting other rules in force does not matter to a rule that competes with none of them. -/
theorem mem_among_others_iff {rules : List R} {x : R}
    (halone : ∀ c ∈ rules, competes x c = false) (s : List R) :
    (x ∈ rules ∨ x ∈ s ∧ ∀ c ∈ rules, competes x c = false) ↔ x ∈ s := by
  have hnew : x ∉ rules := fun hx => by
    have hself := halone x hx
    rw [competes_self] at hself
    cases hself
  exact ⟨fun h => (h.resolve_left hnew).1, fun hx => .inr ⟨hx, halone⟩⟩

end Rule

namespace RuleTable

variable {R : Type} [Rule R]

/-- The rule for a resource. -/
def rule? (t : RuleTable R) (r : Resource) : Option R := (t.get? r).map Edition.rule

theorem rule?_eq_some_iff {t : RuleTable R} (ht : t.Consistent) {r : Resource} {rule : R} :
    t.rule? r = some rule ↔ rule ∈ t.rules ∧ Rule.resource rule = r := by
  rw [rule?, Option.map_eq_some_iff, mem_rules_iff ht]
  constructor
  · rintro ⟨e, he, rfl⟩
    have hr := ht.keyed he
    exact ⟨⟨e, by rw [hr]; exact he, rfl⟩, hr⟩
  · rintro ⟨⟨e, he, rfl⟩, rfl⟩
    exact ⟨e, he, rfl⟩

theorem rule?_eq_of_mem_iff {t t' : RuleTable R} (ht : t.Consistent) (ht' : t'.Consistent)
    (h : ∀ x, x ∈ t.rules ↔ x ∈ t'.rules) (r : Resource) : t.rule? r = t'.rule? r :=
  Option.ext fun rule => by
    rw [rule?_eq_some_iff ht, rule?_eq_some_iff ht', h]

/-- A rule that is the same as no other takes no effect exactly if it is in force. -/
theorem change?_upsert_eq_none_iff {t : RuleTable R} (ht : t.Consistent) {serial : Nat} {rule : R}
    (hrule : (RuleUpdate.upsert rule).IsExact) :
    t.change? serial (.upsert rule) = none ↔ rule ∈ t.rules := by
  have hany : (t.get? (Rule.resource rule)).any (fun e => e.rule == rule) = true ↔
      rule ∈ t.rules := by
    rw [mem_rules_iff ht, Option.any_eq_true]
    exact exists_congr fun e => and_congr_right fun _ => hrule e.rule
  rw [← hany, change?, upsert?]
  dsimp only
  split <;> simp [*]

end RuleTable

/-! ## Documents that do not compete -/

/-- Documents that put rules in force, of either kind, no two of which are for one resource or of one
id. -/
structure AreCompatible (raws : List RawRule) : Prop where
  describe : ∀ raw ∈ raws,
    (∃ rule : LimitRule, raw.Describes rule) ∨ ∃ rule : DegradeRule, raw.Describes rule
  limits : Rule.AreDistinct (rulesOf raws : List LimitRule)
  degrades : Rule.AreDistinct (rulesOf raws : List DegradeRule)

section Documents

variable {R : Type} [Documented R] {raw raw' : RawRule} {raws : List RawRule}

/-- What documents ask for that put rules in force. -/
theorem filterMap_update?_of_upserts
    (h : ∀ raw ∈ raws, ∀ u : RuleUpdate R, raw.update? = some u → ∃ rule, u = .upsert rule) :
    raws.filterMap (RawRule.update? (R := R)) = (rulesOf raws).map .upsert := by
  rw [rulesOf, List.map_filterMap]
  refine List.filterMap_congr fun raw hraw => ?_
  rw [RawRule.rule?]
  cases hu : raw.update? (R := R) with
  | none => rfl
  | some u =>
    obtain ⟨rule, rfl⟩ := h raw hraw u hu
    rfl

/-- The rule of a document competes with none that an earlier document puts in force. -/
theorem competes_eq_false_of_cons [Rule R] [LawfulDocumented R]
    (h : Rule.AreDistinct (rulesOf (R := R) (raw :: raws))) (hraw' : raw' ∈ raws) {rule : R}
    (hrule : raw'.Describes rule) : ∀ c ∈ rulesOf [raw], Rule.competes rule c = false := by
  have happend : rulesOf (R := R) (raw :: raws) = rulesOf [raw] ++ rulesOf raws :=
    List.filterMap_append (l := [raw])
  have hpairwise := h.pairwise
  rw [happend, List.pairwise_append] at hpairwise
  intro c hc
  rw [Rule.competes_comm]
  exact hpairwise.2.2 c hc rule (mem_rulesOf_iff.mpr ⟨raw', hraw', hrule⟩)

end Documents

namespace AreCompatible

variable {raw : RawRule} {raws raws' : List RawRule}

theorem perm (h : AreCompatible raws) (hperm : raws.Perm raws') : AreCompatible raws' where
  describe raw hraw := h.describe raw (hperm.mem_iff.mpr hraw)
  limits := h.limits.perm (hperm.filterMap _)
  degrades := h.degrades.perm (hperm.filterMap _)

theorem sublist (h : AreCompatible raws) (hsub : raws'.Sublist raws) : AreCompatible raws' where
  describe raw hraw := h.describe raw (hsub.subset hraw)
  limits := h.limits.sublist (hsub.filterMap _)
  degrades := h.degrades.sublist (hsub.filterMap _)

theorem updates (h : AreCompatible raws) :
    raws.filterMap (RawRule.update? (R := LimitRule)) = (rulesOf raws).map .upsert ∧
      raws.filterMap (RawRule.update? (R := DegradeRule)) = (rulesOf raws).map .upsert := by
  constructor
  · refine filterMap_update?_of_upserts fun raw hraw u hu => ?_
    have hparse := RawRule.update?_eq_some_iff.mp hu
    rcases h.describe raw hraw with ⟨rule, hrule⟩ | ⟨rule, hrule⟩
    · cases hparse.symm.trans hrule
      exact ⟨rule, rfl⟩
    · cases hparse.symm.trans hrule
  · refine filterMap_update?_of_upserts fun raw hraw u hu => ?_
    have hparse := RawRule.update?_eq_some_iff.mp hu
    rcases h.describe raw hraw with ⟨rule, hrule⟩ | ⟨rule, hrule⟩
    · cases hparse.symm.trans hrule
    · cases hparse.symm.trans hrule
      exact ⟨rule, rfl⟩

end AreCompatible

/-! ## Applying them -/

namespace Loader

variable {σ : Type u} (l : Loader σ) {book : RuleBook} {raw : RawRule} {raws raws' : List RawRule}
  (s : σ)

theorem read?_eq_none_iff_of_describes_limit (hb : book.Consistent) {rule : LimitRule}
    (h : raw.Describes rule) : read? book raw = none ↔ rule ∈ book.limits.rules := by
  have hread : read? book raw = book.changeLimit? (.upsert rule) := by
    rw [read?, show raw.parse = .ok (.rateLimit (.upsert rule)) from h]
    rfl
  rw [hread, RuleBook.changeLimit?, Option.map_eq_none_iff,
    RuleTable.change?_upsert_eq_none_iff hb.limits (RuleUpdate.isExact_limit _)]

theorem read?_eq_none_iff_of_describes_degrade (hb : book.Consistent) {rule : DegradeRule}
    (h : raw.Describes rule) : read? book raw = none ↔ rule ∈ book.degrades.rules := by
  have hparse : raw.parse = .ok (.degrade (.upsert rule)) := h
  have hread : read? book raw = book.changeDegrade? (.upsert rule) := by
    rw [read?, hparse]
    rfl
  rw [hread, RuleBook.changeDegrade?, Option.map_eq_none_iff,
    RuleTable.change?_upsert_eq_none_iff hb.degrades (RawRule.isExact_of_parse hparse)]

/-- After documents that do not compete, their rules are in force, and of the others those that
compete with none of them. -/
theorem mem_rules_applyAll (hb : book.Consistent) (h : AreCompatible raws) :
    let now := (l.applyAll raws (book, s)).2.1
    (∀ x, x ∈ now.limits.rules ↔ x ∈ rulesOf raws ∨
      x ∈ book.limits.rules ∧ ∀ c ∈ rulesOf raws, Rule.competes x c = false) ∧
    ∀ x, x ∈ now.degrades.rules ↔ x ∈ rulesOf raws ∨
      x ∈ book.degrades.rules ∧ ∀ c ∈ rulesOf raws, Rule.competes x c = false := by
  intro now
  obtain ⟨hlimits, hdegrades⟩ := l.sameMembers_applyAll raws s hb
  obtain ⟨hlimitUpdates, hdegradeUpdates⟩ := h.updates
  constructor
  · intro x
    refine (hlimits x).trans ?_
    rw [hlimitUpdates]
    exact RuleUpdate.mem_onSetAll_upserts h.limits.pairwise _ x
  · intro x
    refine (hdegrades x).trans ?_
    rw [hdegradeUpdates]
    exact RuleUpdate.mem_onSetAll_upserts h.degrades.pairwise _ x

/-- Whether a document takes effect does not depend on whether another was applied before it that
does not compete with it. -/
theorem read?_apply_eq_none_iff (hb : book.Consistent) (h : AreCompatible (raw :: raws))
    {raw' : RawRule} (hraw' : raw' ∈ raws) :
    read? (l.apply raw (book, s)).2.1 raw' = none ↔ read? book raw' = none := by
  have hone : AreCompatible [raw] := h.sublist (List.singleton_sublist.mpr List.mem_cons_self)
  obtain ⟨hlimits, hdegrades⟩ := l.mem_rules_applyAll s hb hone
  have hnext : (l.apply raw (book, s)).2.1.Consistent := l.consistent_applyAll [raw] hb
  rcases h.describe raw' (List.mem_cons_of_mem _ hraw') with ⟨rule, hrule⟩ | ⟨rule, hrule⟩
  · have halone := competes_eq_false_of_cons h.limits hraw' hrule
    rw [read?_eq_none_iff_of_describes_limit hnext hrule,
      read?_eq_none_iff_of_describes_limit hb hrule]
    exact (hlimits rule).trans (Rule.mem_among_others_iff halone _)
  · have halone := competes_eq_false_of_cons h.degrades hraw' hrule
    rw [read?_eq_none_iff_of_describes_degrade hnext hrule,
      read?_eq_none_iff_of_describes_degrade hb hrule]
    exact (hdegrades rule).trans (Rule.mem_among_others_iff halone _)

/-- As many documents take effect as would do so on the book they find. -/
theorem count_applyAll (hb : book.Consistent) (h : AreCompatible raws) :
    (l.applyAll raws (book, s)).1 = raws.countP fun raw => (read? book raw).isSome := by
  induction raws generalizing book s with
  | nil => rfl
  | cons raw raws ih =>
    have hrest : AreCompatible raws := h.sublist (List.sublist_cons_self _ _)
    have hnext : (l.apply raw (book, s)).2.1.Consistent := l.consistent_applyAll [raw] hb
    have hsame : ∀ raw' ∈ raws, ((read? (l.apply raw (book, s)).2.1 raw').isSome = true ↔
        (read? book raw').isSome = true) := fun raw' hraw' => by
      simp only [Option.isSome_iff_ne_none, ne_eq, l.read?_apply_eq_none_iff s hb h hraw']
    have hcount := (ih (l.apply raw (book, s)).2.2 hnext hrest).trans (List.countP_congr hsame)
    rw [applyAll_cons, List.countP_cons]
    rcases l.apply_cases raw book s with ⟨book', hread, happly⟩ | ⟨hread, happly⟩
    · rw [happly] at hcount
      simp only [happly, hread, Option.isSome_some, if_true]
      rw [hcount]
    · rw [happly] at hcount
      simp only [happly, hread, Option.isSome_none, Bool.false_eq_true, if_false]
      rw [hcount]
      rfl

/-- **The order of documents does not matter** when they do not compete: whatever the book they are
applied to, in any order they put the same rules of both kinds in force, lead to the same version,
and as many of them are reported to change the rules. -/
theorem order_does_not_matter (changes : List RuleChange) (h : AreCompatible raws)
    (hperm : raws.Perm raws') :
    let book := RuleBook.ofChanges changes
    let run := l.applyAll raws (book, s)
    let run' := l.applyAll raws' (book, s)
    (∀ r, run.2.1.limits.rule? r = run'.2.1.limits.rule? r) ∧
      (∀ r, run.2.1.degrades.rule? r = run'.2.1.degrades.rule? r) ∧
      run.2.1.version = run'.2.1.version ∧ run.1 = run'.1 := by
  intro book run run'
  have hb : book.Consistent := RuleBook.consistent_ofChanges changes
  have hnow : run.2.1.Consistent := l.consistent_applyAll raws hb
  have hnow' : run'.2.1.Consistent := l.consistent_applyAll raws' hb
  obtain ⟨hlimits, hdegrades⟩ := l.mem_rules_applyAll s hb h
  obtain ⟨hlimits', hdegrades'⟩ := l.mem_rules_applyAll s hb (h.perm hperm)
  have hlimitRules : ∀ x : LimitRule, x ∈ rulesOf raws ↔ x ∈ rulesOf raws' := fun x =>
    (hperm.filterMap _).mem_iff
  have hdegradeRules : ∀ x : DegradeRule, x ∈ rulesOf raws ↔ x ∈ rulesOf raws' := fun x =>
    (hperm.filterMap _).mem_iff
  -- A document that is compatible with the others changes something or not by itself, so the
  -- changes can be counted without regard to the order.
  have hcount : run.1 = run'.1 := (l.count_applyAll s hb h).trans
    ((hperm.countP_eq _).trans (l.count_applyAll s hb (h.perm hperm)).symm)
  refine ⟨?_, ?_, ?_, hcount⟩
  · refine RuleTable.rule?_eq_of_mem_iff hnow.limits hnow'.limits fun x => ?_
    rw [hlimits, hlimits']
    simp only [hlimitRules]
  · refine RuleTable.rule?_eq_of_mem_iff hnow.degrades hnow'.degrades fun x => ?_
    rw [hdegrades, hdegrades']
    simp only [hdegradeRules]
  · exact (l.version_applyAll raws book s).trans
      ((congrArg (book.version + ·) hcount).trans (l.version_applyAll raws' book s).symm)

/-- Two rules that change places. In either order the first document drives out both rules that were
in force, and each order drives out and brings back others of them. -/
theorem order_does_not_matter_swap :
    let rule (id : Int) (service : String) : LimitRule :=
      { id := some id, resource := .service service, qps := some 5 }
    let changes := [RuleChange.rateLimit (.upsert (rule 1 "a")), .rateLimit (.upsert (rule 2 "b"))]
    let document (id : Int) (service : String) : RawRule :=
      { kind := .rateLimit
        document := .obj [("id", .int id), ("qps", .int 5), ("service", .str service),
          ("type", .int 3)] }
    let raws := [document 1 "b", document 2 "a"]
    let l : Loader Unit := {}
    AreCompatible raws ∧
      (l.applyAll raws (RuleBook.ofChanges changes, ())).1 = 2 ∧
      (l.applyAll raws.reverse (RuleBook.ofChanges changes, ())).1 = 2 ∧
      (l.applyAll raws.reverse (RuleBook.ofChanges changes, ())).2.1.limits.rule? (.service "a") =
        some (rule 2 "a") := by
  intro rule changes document raws l
  have hcompatible : AreCompatible raws := by
    refine ⟨?_, ⟨by decide +kernel, by decide +kernel⟩, ⟨by decide +kernel, by decide +kernel⟩⟩
    intro raw hraw
    simp only [raws, List.mem_cons, List.not_mem_nil, or_false] at hraw
    rcases hraw with rfl | rfl
    · exact .inl ⟨rule 1 "b", rfl⟩
    · exact .inl ⟨rule 2 "a", rfl⟩
  obtain ⟨hlimits, -, -, hcount⟩ :=
    l.order_does_not_matter () changes hcompatible raws.reverse_perm.symm
  have htwo : (l.applyAll raws (RuleBook.ofChanges changes, ())).1 = 2 := by decide +kernel
  refine ⟨hcompatible, htwo, hcount.symm.trans htwo, (hlimits (.service "a")).symm.trans ?_⟩
  decide +kernel

end Loader
end Floodgate
