import Floodgate.Proofs.Rule.Equality
import Floodgate.Proofs.Rule.Indices

/-!
# A rule table is a plain set of rules

What a rule table is for can be said without indices. Let the rules of one kind be a set. Putting a
rule in force takes out every rule for the same resource or of the same id and puts the new one in;
a deletion takes out the rule of the id if there is one, and otherwise the rule of the resource.
`RuleUpdate.onSet` is that reading, over a list in which neither order nor repetition means
anything.

The main statement is that every rule book is such a pair of sets at all times
(`represents_ofChanges`), that a change is reported exactly if it changes the set, and that the
version counts the reported changes.

Two sets are compared by `SameRules`, that is up to the comparison of rules that the book itself
uses. For limit rules this is equality. For degrade rules it leaves open the sign of a zero
threshold, and it needs thresholds that are numbers: a rule that differs from itself would be put
in force again each time it is delivered.
-/

set_option autoImplicit false

namespace Floodgate

/-! ## Sets of rules -/

section SameRules

variable {R : Type} [Rule R]

/-- Each rule of one set is a rule of the other. Rules are compared by `==`, as the book compares
them, so that sets count as the same if the book cannot tell them apart. -/
def SameRules (s s' : List R) : Prop :=
  (∀ x ∈ s, ∃ y ∈ s', (x == y) = true) ∧ ∀ y ∈ s', ∃ x ∈ s, (x == y) = true

/-- What a change of rules does to a plain set of rules. It is the whole meaning of a change, said
without looking anything up in an index. -/
def RuleUpdate.onSet : RuleUpdate R → List R → List R
  | .upsert rule, s => rule :: s.filter fun x => !Rule.competes x rule
  | .delete id resource, s =>
    if s.any (Rule.hasId id) then s.filter fun x => !Rule.hasId id x
    else s.filter fun x => !decide (some (Rule.resource x) = resource)

/-- The rule that a change puts in force, if any, is the same as itself. -/
def RuleUpdate.IsProper : RuleUpdate R → Prop
  | .upsert rule => (rule == rule) = true
  | .delete .. => True

/-- Two lists with the same members are the same set, provided that their members are themselves. -/
theorem sameRules_of_mem_iff {s s' : List R} (hs : ∀ x ∈ s, (x == x) = true)
    (h : ∀ x, x ∈ s ↔ x ∈ s') : SameRules s s' :=
  ⟨fun x hx => ⟨x, (h x).mp hx, hs x hx⟩, fun y hy => ⟨y, (h y).mpr hy, hs y ((h y).mpr hy)⟩⟩

/-- Same sets are filtered to same sets, if the filter cannot tell same rules apart. -/
theorem SameRules.filter {s s' : List R} (h : SameRules s s') {p : R → Bool}
    (hp : ∀ {x y : R}, (x == y) = true → p x = p y) : SameRules (s.filter p) (s'.filter p) := by
  constructor
  · intro x hx
    obtain ⟨hm, hpx⟩ := List.mem_filter.mp hx
    obtain ⟨y, hy, e⟩ := h.1 x hm
    exact ⟨y, List.mem_filter.mpr ⟨hy, hp e ▸ hpx⟩, e⟩
  · intro y hy
    obtain ⟨hm, hpy⟩ := List.mem_filter.mp hy
    obtain ⟨x, hx, e⟩ := h.2 y hm
    exact ⟨x, List.mem_filter.mpr ⟨hx, hp e ▸ hpy⟩, e⟩

theorem SameRules.any_eq {s s' : List R} (h : SameRules s s') {p : R → Bool}
    (hp : ∀ {x y : R}, (x == y) = true → p x = p y) : s.any p = s'.any p := by
  rw [Bool.eq_iff_iff, List.any_eq_true, List.any_eq_true]
  constructor
  · rintro ⟨x, hx, hpx⟩
    obtain ⟨y, hy, e⟩ := h.1 x hx
    exact ⟨y, hy, hp e ▸ hpx⟩
  · rintro ⟨y, hy, hpy⟩
    obtain ⟨x, hx, e⟩ := h.2 y hy
    exact ⟨x, hx, hp e ▸ hpy⟩

/-- For limit rules, which are the same only if they are equal, this is equality of sets. -/
theorem sameRules_limit_iff {s s' : List LimitRule} :
    SameRules s s' ↔ ∀ x, x ∈ s ↔ x ∈ s' := by
  constructor
  · intro h x
    constructor
    · intro hx
      obtain ⟨y, hy, e⟩ := h.1 x hx
      exact beq_iff_eq.mp e ▸ hy
    · intro hx
      obtain ⟨y, hy, e⟩ := h.2 x hx
      exact beq_iff_eq.mp e ▸ hy
  · exact fun h => sameRules_of_mem_iff (fun x _ => beq_self_eq_true x) h

variable [LawfulRule R]

/-- This and the next lemma are why `==` must be symmetric and transitive. -/
theorem SameRules.symm {s s' : List R} (h : SameRules s s') : SameRules s' s :=
  ⟨fun y hy => let ⟨x, hx, e⟩ := h.2 y hy; ⟨x, hx, LawfulRule.symm e⟩,
   fun x hx => let ⟨y, hy, e⟩ := h.1 x hx; ⟨y, hy, LawfulRule.symm e⟩⟩

theorem SameRules.trans {s s' s'' : List R} (h : SameRules s s') (h' : SameRules s' s'') :
    SameRules s s'' := by
  constructor
  · intro x hx
    obtain ⟨y, hy, e⟩ := h.1 x hx
    obtain ⟨z, hz, e'⟩ := h'.1 y hy
    exact ⟨z, hz, LawfulRule.trans e e'⟩
  · intro z hz
    obtain ⟨y, hy, e'⟩ := h'.2 z hz
    obtain ⟨x, hx, e⟩ := h.2 y hy
    exact ⟨x, hx, LawfulRule.trans e e'⟩

theorem hasId_congr {x y : R} (e : (x == y) = true) (id : Option Int) :
    Rule.hasId id x = Rule.hasId id y := by
  rw [Rule.hasId, Rule.hasId, LawfulRule.id_eq e]

theorem competes_congr {x y : R} (e : (x == y) = true) (rule : R) :
    Rule.competes x rule = Rule.competes y rule := by
  rw [Rule.competes, Rule.competes, LawfulRule.resource_eq e, hasId_congr e]

/-- **A change makes same sets of same sets.** The rule that is put in force has to be the same as
itself, for it is a member of both. -/
theorem SameRules.onSet {s s' : List R} (h : SameRules s s') {u : RuleUpdate R}
    (hu : u.IsProper) : SameRules (u.onSet s) (u.onSet s') := by
  cases u with
  | upsert rule =>
    -- same rules have the same competitors, so the same rules make way on both sides
    have hf := h.filter (p := fun x => !Rule.competes x rule) fun e => by
      rw [competes_congr e rule]
    constructor
    · intro x hx
      rcases List.mem_cons.mp hx with rfl | hx
      · exact ⟨x, List.mem_cons_self, hu⟩
      · obtain ⟨y, hy, e⟩ := hf.1 x hx
        exact ⟨y, List.mem_cons_of_mem _ hy, e⟩
    · intro y hy
      rcases List.mem_cons.mp hy with rfl | hy
      · exact ⟨y, List.mem_cons_self, hu⟩
      · obtain ⟨x, hx, e⟩ := hf.2 y hy
        exact ⟨x, List.mem_cons_of_mem _ hx, e⟩
  | delete id resource =>
    have hid : ∀ {x y : R}, (x == y) = true → Rule.hasId id x = Rule.hasId id y := fun e =>
      hasId_congr e id
    rw [RuleUpdate.onSet, RuleUpdate.onSet, h.any_eq hid]
    split
    · exact h.filter fun e => by rw [hid e]
    · exact h.filter fun e => by rw [LawfulRule.resource_eq e]

end SameRules

/-! ## One change of a table -/

namespace RuleTable

variable {R : Type} [Rule R]

/-- Which rules a deletion leaves, said by the place where the table finds its rule. The plain
reading looks for the id among all rules, and the table in its index. -/
theorem mem_onSet_delete {t : RuleTable R} (ht : t.Consistent) (id : Option Int)
    (resource : Option Resource) (x : R) :
    x ∈ (RuleUpdate.delete id resource).onSet t.rules ↔
      x ∈ t.rules ∧ t.target? id resource ≠ some (Rule.resource x) := by
  by_cases hany : t.rules.any (Rule.hasId id) = true
  · -- the id is in use, so that the table goes by the id alone
    obtain ⟨y, hy, hid⟩ := List.any_eq_true.mp hany
    obtain ⟨e, he, rfl⟩ := (mem_rules_iff ht y).mp hy
    cases id with
    | none => exact absurd hid (by simp)
    | some i =>
      have hyi : Rule.id e.rule = some i := by simpa using hid
      have htarget : t.target? (some i) resource = some (Rule.resource e.rule) := by
        simp [target?, ht.byId_iff.mpr ⟨e, he, hyi⟩]
      rw [RuleUpdate.onSet, if_pos hany, List.mem_filter, htarget]
      refine and_congr_right fun hx => ?_
      obtain ⟨e', he', rfl⟩ := (mem_rules_iff ht x).mp hx
      have hiff : Rule.id e'.rule = some i ↔ Rule.resource e.rule = Rule.resource e'.rule := by
        constructor
        · exact fun hxi => ht.id_injective he hyi he' hxi
        · intro hr
          rw [hr, he'] at he
          cases he
          exact hyi
      simp [hiff]
  · -- no rule has the id, so that both readings go by the resource
    have htarget : t.target? id resource = resource := by
      have hnone : id.bind t.byId.get? = none := by
        cases hb : id.bind t.byId.get? with
        | none => rfl
        | some r =>
          obtain ⟨i, rfl, hi⟩ := Option.bind_eq_some_iff.mp hb
          obtain ⟨e, he, hid⟩ := ht.byId_iff.mp hi
          exact absurd
            (List.any_eq_true.mpr ⟨e.rule, mem_rules_of_get? ht he, by simp [hid]⟩) hany
      simp [target?, hnone]
    rw [RuleUpdate.onSet, if_neg hany, List.mem_filter, htarget]
    refine and_congr_right fun _ => ?_
    rw [Bool.not_eq_true', decide_eq_false_iff_not, ne_comm]

theorem mem_rules_remove_iff {t : RuleTable R} (ht : t.Consistent) (r : Resource) (x : R) :
    x ∈ (t.remove r).rules ↔ x ∈ t.rules ∧ Rule.resource x ≠ r := by
  rw [mem_rules_iff (ht.remove r), mem_rules_iff ht, get?_remove]
  by_cases h : Rule.resource x = r <;> simp [h]

/-- The rules that make way for a new one are those that compete with it. -/
theorem mem_rules_entered_iff {t : RuleTable R} (ht : t.Consistent) (serial : Nat) (rule x : R) :
    x ∈ (t.entered serial rule).rules ↔ x ∈ (RuleUpdate.upsert rule).onSet t.rules := by
  rw [mem_rules_iff (ht.entered serial rule), get?_entered ht, RuleUpdate.onSet, List.mem_cons,
    List.mem_filter, mem_rules_iff ht]
  by_cases h : Rule.resource x = Rule.resource rule
  · have hc : Rule.competes x rule = true := by simp [Rule.competes, h]
    simp only [h, if_true, Option.some.injEq, exists_eq_left', hc, Bool.not_true,
      Bool.false_eq_true, and_false, or_false]
    exact eq_comm
  · have hne : x ≠ rule := fun e => h (congrArg Rule.resource e)
    simp only [h, if_false, hne, false_or]
    constructor
    · rintro ⟨e, he, rfl⟩
      obtain ⟨he, hc⟩ := Option.filter_eq_some_iff.mp he
      exact ⟨⟨e, he, rfl⟩, hc⟩
    · rintro ⟨⟨e, he, rfl⟩, hc⟩
      exact ⟨e, Option.filter_eq_some_iff.mpr ⟨he, hc⟩, rfl⟩

/-- A change that takes effect makes of the set of rules what it makes of a plain set. -/
theorem mem_rules_change_iff {t t' : RuleTable R} (ht : t.Consistent) {serial : Nat}
    {u : RuleUpdate R} (h : t.change? serial u = some t') (x : R) :
    x ∈ t'.rules ↔ x ∈ u.onSet t.rules := by
  rcases change?_eq_some_cases h with ⟨rule, rfl, rfl, -⟩ | ⟨id, resource, r, rfl, hr, -, rfl⟩
  · exact mem_rules_entered_iff ht serial rule x
  · rw [mem_rules_remove_iff ht, mem_onSet_delete ht, hr]
    exact and_congr_right fun _ => by rw [ne_comm, ne_eq, ne_eq, Option.some.injEq]

/-- A change that takes effect changes the set: an entered rule was not there before, a removed rule
is there no more. Neither can have been replaced by one that is the same. -/
theorem not_sameRules_change [LawfulRule R] {t t' : RuleTable R} (ht : t.Consistent)
    {serial : Nat} {u : RuleUpdate R} (h : t.change? serial u = some t') :
    ¬ SameRules t.rules t'.rules := by
  intro hs
  rcases change?_eq_some_cases h with ⟨rule, rfl, rfl, hnew⟩ | ⟨id, resource, r, rfl, -, hr, rfl⟩
  · obtain ⟨x, hx, e⟩ := hs.2 rule ((mem_rules_entered_iff ht serial rule rule).mpr
      List.mem_cons_self)
    obtain ⟨e', he', rfl⟩ := (mem_rules_iff ht x).mp hx
    rw [LawfulRule.resource_eq e] at he'
    exact absurd e (by rw [hnew e' he']; exact Bool.false_ne_true)
  · obtain ⟨e, he⟩ := Option.isSome_iff_exists.mp hr
    obtain ⟨y, hy, e'⟩ := hs.1 e.rule (mem_rules_of_get? ht he)
    refine ((mem_rules_remove_iff ht r y).mp hy).2 ?_
    rw [← LawfulRule.resource_eq e', ht.keyed he]

/-- What competes with a rule that is in force already is that rule itself. So nothing would have to
make way if it were put in force once more. -/
theorem beq_of_competes [LawfulRule R] {t : RuleTable R} (ht : t.Consistent) {e : Edition R}
    {rule x : R} (he : t.get? (Rule.resource rule) = some e) (hsame : (e.rule == rule) = true)
    (hx : x ∈ t.rules) (hc : Rule.competes x rule = true) : (x == rule) = true := by
  obtain ⟨e', he', rfl⟩ := (mem_rules_iff ht x).mp hx
  have hr : Rule.resource e'.rule = Rule.resource rule := by
    rw [Rule.competes, Bool.or_eq_true, decide_eq_true_eq] at hc
    rcases hc with hc | hc
    · exact hc
    · -- they share an id, and no id belongs to two rules of the table
      cases hid : Rule.id rule with
      | none => simp [hid] at hc
      | some i =>
        have hi : Rule.id e'.rule = some i := by simpa [hid] using hc
        exact ht.id_injective he' hi he ((LawfulRule.id_eq hsame).trans hid)
  rw [hr, he] at he'
  cases he'
  exact hsame

/-- A change that takes no effect leaves the set that a plain set would become. Here rules must be
the same as themselves: one that is not would be put in force again and again. -/
theorem sameRules_of_change?_eq_none [LawfulRule R] {t : RuleTable R} (ht : t.Consistent)
    (hself : ∀ x ∈ t.rules, (x == x) = true) {serial : Nat} {u : RuleUpdate R}
    (h : t.change? serial u = none) : SameRules t.rules (u.onSet t.rules) := by
  rcases change?_eq_none_cases h with ⟨rule, e, rfl, he, hsame⟩ | ⟨id, resource, rfl, hnone⟩
  · -- whatever would make way is the same as the rule that would come in
    have hmem : e.rule ∈ t.rules := mem_rules_of_get? ht he
    constructor
    · intro x hx
      cases hc : Rule.competes x rule with
      | true => exact ⟨rule, List.mem_cons_self, beq_of_competes ht he hsame hx hc⟩
      | false =>
        exact ⟨x, List.mem_cons_of_mem _ (List.mem_filter.mpr ⟨hx, by rw [hc]; rfl⟩), hself x hx⟩
    · intro y hy
      rcases List.mem_cons.mp hy with rfl | hy
      · exact ⟨e.rule, hmem, hsame⟩
      · exact ⟨y, (List.mem_filter.mp hy).1, hself y (List.mem_filter.mp hy).1⟩
  · refine sameRules_of_mem_iff hself fun x => ?_
    rw [mem_onSet_delete ht]
    refine ⟨fun hx => ⟨hx, fun htarget => ?_⟩, And.left⟩
    obtain ⟨e, he, -⟩ := (mem_rules_iff ht x).mp hx
    rw [hnone _ htarget] at he
    cases he

/-! ## Tables along a run of changes -/

/-- A table holds the rules of a plain set, each found by its resource and by its id. -/
structure Represents (t : RuleTable R) (s : List R) : Prop where
  /-- Each rule stands at its own resource, and an id leads to the resource whose rule has it. -/
  consistent : t.Consistent
  /-- No two rules are for one resource or of one id. -/
  alone : t.rules.Pairwise fun a b => Rule.competes a b = false
  same : SameRules t.rules s

/-- A table that represents a set, and all rules of which are the same as themselves. This is the
invariant of a run of changes, since a later change may find any of these rules in force. -/
structure Tracks (t : RuleTable R) (s : List R) : Prop where
  consistent : t.Consistent
  self : ∀ x ∈ t.rules, (x == x) = true
  same : SameRules t.rules s

theorem tracks_empty : (empty : RuleTable R).Tracks [] where
  consistent := consistent_empty
  self _ hx := absurd hx List.not_mem_nil
  same := ⟨fun _ hx => absurd hx List.not_mem_nil, fun _ hy => absurd hy List.not_mem_nil⟩

theorem Tracks.represents {t : RuleTable R} {s : List R} (h : t.Tracks s) : t.Represents s :=
  ⟨h.consistent, h.consistent.pairwise, h.same⟩

variable {t : RuleTable R} {s : List R} {serial : Nat} {u : RuleUpdate R}

theorem Tracks.self_onSet (h : t.Tracks s) (hu : u.IsProper) :
    ∀ x ∈ u.onSet t.rules, (x == x) = true := by
  intro x hx
  cases u with
  | upsert rule =>
    rcases List.mem_cons.mp hx with rfl | hx
    · exact hu
    · exact h.self x (List.mem_filter.mp hx).1
  | delete id resource => exact h.self x ((mem_onSet_delete h.consistent id resource x).mp hx).1

variable [LawfulRule R]

/-- **One change keeps a table in step with a plain set**, whether it takes effect or not. -/
theorem Tracks.change (h : t.Tracks s) (serial : Nat) (hu : u.IsProper) :
    ((t.change? serial u).getD t).Tracks (u.onSet s) := by
  cases hc : t.change? serial u with
  | none => exact ⟨h.consistent, h.self,
      (sameRules_of_change?_eq_none h.consistent h.self hc).trans (h.same.onSet hu)⟩
  | some t' =>
    have hm := mem_rules_change_iff h.consistent hc
    have hself : ∀ x ∈ t'.rules, (x == x) = true := fun x hx => h.self_onSet hu x ((hm x).mp hx)
    exact ⟨h.consistent.change hc, hself, (sameRules_of_mem_iff hself hm).trans (h.same.onSet hu)⟩

/-- A change takes effect on the table exactly if it changes the plain set. -/
theorem Tracks.change?_isSome_iff (h : t.Tracks s) (serial : Nat) (hu : u.IsProper) :
    (t.change? serial u).isSome ↔ ¬ SameRules s (u.onSet s) := by
  have hnext := (h.change serial hu).same
  cases hc : t.change? serial u with
  | none =>
    rw [hc] at hnext
    exact iff_of_false (by simp) (not_not_intro (h.same.symm.trans hnext))
  | some t' =>
    rw [hc] at hnext
    exact iff_of_true rfl fun hs =>
      not_sameRules_change h.consistent hc ((h.same.trans hs).trans hnext.symm)

end RuleTable

/-! ## Rule books along a run of changes -/

/-- The rules in force as two plain sets. -/
structure PlainBook where
  limits : List LimitRule := []
  degrades : List DegradeRule := []

namespace PlainBook

/-- The sets after a change. -/
def after (s : PlainBook) : RuleChange → PlainBook
  | .rateLimit u => { s with limits := u.onSet s.limits }
  | .degrade u => { s with degrades := u.onSet s.degrades }

/-- The sets that changes make of two empty ones. -/
def ofChanges (cs : List RuleChange) : PlainBook := cs.foldl after {}

/-- Both sets are the same. -/
def Same (s s' : PlainBook) : Prop :=
  SameRules s.limits s'.limits ∧ SameRules s.degrades s'.degrades

end PlainBook

/-- The threshold that a change puts in force, if any, is a number. Changes that come from documents
are like this, and those that are made in a program need not be. -/
def RuleChange.IsNumeric : RuleChange → Prop
  | .degrade (.upsert rule) => rule.strategy.IsNumeric
  | _ => True

theorem RuleChange.IsNumeric.limitProper {u : RuleUpdate LimitRule} : u.IsProper := by
  cases u with
  | upsert rule => exact beq_self_eq_true rule
  | delete id resource => trivial

theorem RuleChange.IsNumeric.degradeProper {u : RuleUpdate DegradeRule}
    (h : (RuleChange.degrade u).IsNumeric) : u.IsProper := by
  cases u with
  | upsert rule => exact degradeRule_beq_self h
  | delete id resource => trivial

theorem RuleTable.Tracks.sameRules_self {R : Type} [Rule R] [LawfulRule R] {t : RuleTable R}
    {s : List R} (h : t.Tracks s) : SameRules s s := h.same.symm.trans h.same

namespace RuleBook

/-- Both tables of a book track a plain set. -/
structure Tracks (b : RuleBook) (s : PlainBook) : Prop where
  limits : b.limits.Tracks s.limits
  degrades : b.degrades.Tracks s.degrades

theorem after_rateLimit (b : RuleBook) (u : RuleUpdate LimitRule) :
    (b.after (.rateLimit u)).limits = (b.limits.change? (b.version + 1) u).getD b.limits ∧
      (b.after (.rateLimit u)).degrades = b.degrades := by
  cases h : b.limits.change? (b.version + 1) u <;> simp [after, change?, changeLimit?, h]

theorem after_degrade (b : RuleBook) (u : RuleUpdate DegradeRule) :
    (b.after (.degrade u)).degrades = (b.degrades.change? (b.version + 1) u).getD b.degrades ∧
      (b.after (.degrade u)).limits = b.limits := by
  cases h : b.degrades.change? (b.version + 1) u <;> simp [after, change?, changeDegrade?, h]

theorem Tracks.after {b : RuleBook} {s : PlainBook} (h : b.Tracks s) {c : RuleChange}
    (hc : c.IsNumeric) : (b.after c).Tracks (s.after c) := by
  cases c with
  | rateLimit u =>
    obtain ⟨hl, hd⟩ := b.after_rateLimit u
    exact ⟨hl ▸ h.limits.change _ RuleChange.IsNumeric.limitProper, hd ▸ h.degrades⟩
  | degrade u =>
    obtain ⟨hd, hl⟩ := b.after_degrade u
    exact ⟨hl ▸ h.limits, hd ▸ h.degrades.change _ hc.degradeProper⟩

theorem Tracks.foldl {cs : List RuleChange} :
    ∀ {b : RuleBook} {s : PlainBook}, b.Tracks s → (∀ c ∈ cs, c.IsNumeric) →
      (cs.foldl RuleBook.after b).Tracks (cs.foldl PlainBook.after s) := by
  induction cs with
  | nil => exact fun h _ => h
  | cons c cs ih =>
    exact fun h hc => ih (h.after (hc c List.mem_cons_self))
      fun c' hc' => hc c' (List.mem_cons_of_mem _ hc')

theorem tracks_ofChanges {cs : List RuleChange} (h : ∀ c ∈ cs, c.IsNumeric) :
    (ofChanges cs).Tracks (PlainBook.ofChanges cs) :=
  Tracks.foldl ⟨RuleTable.tracks_empty, RuleTable.tracks_empty⟩ h

/-- A change is reported exactly if one of the two sets changes. A change of one kind leaves the
other set alone, so that one is the same as itself. -/
theorem Tracks.change?_isSome_iff {b : RuleBook} {s : PlainBook} (h : b.Tracks s) {c : RuleChange}
    (hc : c.IsNumeric) : (b.change? c).isSome ↔ ¬ s.Same (s.after c) := by
  cases c with
  | rateLimit u =>
    have hiff := h.limits.change?_isSome_iff (b.version + 1)
      (RuleChange.IsNumeric.limitProper (u := u))
    have hself : SameRules s.degrades s.degrades := h.degrades.sameRules_self
    simpa [change?, changeLimit?, PlainBook.Same, PlainBook.after, hself] using hiff
  | degrade u =>
    have hiff := h.degrades.change?_isSome_iff (b.version + 1) hc.degradeProper
    have hself : SameRules s.limits s.limits := h.limits.sameRules_self
    simpa [change?, changeDegrade?, PlainBook.Same, PlainBook.after, hself] using hiff

/-- The version counts the changes that took effect. -/
theorem version_after (b : RuleBook) (c : RuleChange) :
    (b.after c).version = if (b.change? c).isSome then b.version + 1 else b.version := by
  cases h : b.change? c with
  | none => simp [after, h]
  | some b' =>
    rcases change?_eq_some_cases h with ⟨u, t, -, -, rfl⟩ | ⟨u, t, -, -, rfl⟩ <;> simp [after, h]

/-- **A rule book is a pair of plain sets**, along every run of changes from the book without
rules: both tables represent the sets that the changes make of two empty ones, a change takes
effect exactly if it changes a set, the version goes up by one with each change that does, and
otherwise the book stays as it is. A change of one kind leaves the rules of the other alone. -/
theorem represents_ofChanges (cs : List RuleChange) (c : RuleChange)
    (h : ∀ c' ∈ cs ++ [c], c'.IsNumeric) :
    let book := ofChanges cs
    let plain := PlainBook.ofChanges cs
    (book.limits.Represents plain.limits ∧ book.degrades.Represents plain.degrades) ∧
    ((book.change? c).isSome ↔ ¬ plain.Same (plain.after c)) ∧
    (book.after c).version =
      (if (book.change? c).isSome then book.version + 1 else book.version) ∧
    (book.change? c = none → book.after c = book) ∧
    (∀ u, c = .rateLimit u → (book.after c).degrades = book.degrades) ∧
    ∀ u, c = .degrade u → (book.after c).limits = book.limits := by
  intro book plain
  have hbook : book.Tracks plain :=
    tracks_ofChanges fun c' hc' => h c' (List.mem_append_left _ hc')
  have hc : c.IsNumeric := h c (by simp)
  refine ⟨⟨hbook.limits.represents, hbook.degrades.represents⟩, hbook.change?_isSome_iff hc,
    book.version_after c, fun hn => ?_, ?_, ?_⟩
  · rw [after, hn, Option.getD_none]
  · rintro u rfl
    exact (book.after_rateLimit u).2
  · rintro u rfl
    exact (book.after_degrade u).2

/-- A rule that moves with its id from one service to another, and a deletion that names the id and
the service it came from. -/
theorem represents_ofChanges_moved :
    let rule (service : String) (ratio : Float) : DegradeRule :=
      { id := some 1, resource := .service service, strategy := .errorRatio ratio }
    let cs := [RuleChange.degrade (.upsert (rule "a" 0.5)), .degrade (.upsert (rule "b" 0.25))]
    let c := RuleChange.degrade (.delete (some 1) (some (.service "a")))
    (∀ c' ∈ cs ++ [c], c'.IsNumeric) ∧ ((ofChanges cs).change? c).isSome ∧
      ¬ (PlainBook.ofChanges cs).Same ((PlainBook.ofChanges cs).after c) := by
  intro rule cs c
  have hn : ∀ c' ∈ cs ++ [c], c'.IsNumeric := by
    intro c' hc'
    simp only [cs, c, List.cons_append, List.nil_append, List.mem_cons, List.not_mem_nil,
      or_false] at hc'
    rcases hc' with rfl | rfl | rfl
    · exact (show (0.5 : Float).isNaN = false by decide)
    · exact (show (0.25 : Float).isNaN = false by decide)
    · trivial
  have hsome : ((ofChanges cs).change? c).isSome := by decide
  exact ⟨hn, hsome, (represents_ofChanges cs c hn).2.1.mp hsome⟩

end RuleBook
end Floodgate
