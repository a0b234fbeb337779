import Floodgate.Rule.Book

/-!
# The two indices of a rule table

A table finds its rules by resource and by id. `RuleTable.Consistent` says that the two indices
describe one set of rules: each rule stands at its own resource, and an id leads to a resource
exactly if the rule there has that id. It follows that no id belongs to two rules.

A change goes through several partial steps (the rule that has the id elsewhere is removed, the
rule of the resource is removed, the new one is entered), and each of them is one equation on the
view by resource. `Consistent` turns these equations into the meaning of the whole change:
`get?_entered` speaks of rules that compete for a resource or an id, and no longer of indices.
`change?_eq_some_cases` is the inversion that everything later starts from: a change that takes
effect enters a rule or removes one.
-/

set_option autoImplicit false

namespace Floodgate

/-! ## Rules that cannot be in force together -/

namespace Rule

variable {R : Type} [Rule R]

/-- Whether a rule has a given id. No rule has the absent id. -/
def hasId (id : Option Int) (rule : R) : Bool := id.isSome && decide (Rule.id rule = id)

/-- Whether two rules are for one resource or of one id. Two such rules cannot be in force together,
and the later of them drives out the earlier. -/
def competes (a b : R) : Bool :=
  decide (Rule.resource a = Rule.resource b) || hasId (Rule.id b) a

@[simp] theorem hasId_none (rule : R) : hasId none rule = false := rfl

@[simp] theorem hasId_some (i : Int) (rule : R) :
    hasId (some i) rule = decide (Rule.id rule = some i) := rfl

end Rule

namespace RuleTable

variable {R : Type}

/-- The rules of a table. -/
def rules (t : RuleTable R) : List R := t.toList.map Edition.rule

variable [Rule R]

/-- The two indices of a table describe one set of rules. A table that is not consistent could
answer for a rule by its id that it no longer has at its resource, or keep two rules of one id. -/
structure Consistent (t : RuleTable R) : Prop where
  /-- Each rule stands at its own resource. -/
  keyed : ∀ {r : Resource} {e : Edition R}, t.get? r = some e → Rule.resource e.rule = r
  /-- An id leads to the resource whose rule has it. -/
  byId_iff : ∀ {i : Int} {r : Resource},
    t.byId.get? i = some r ↔ ∃ e, t.get? r = some e ∧ Rule.id e.rule = some i

theorem consistent_empty : (empty : RuleTable R).Consistent where
  keyed h := absurd h (by simp [get?, empty])
  byId_iff := by simp [get?, empty]

/-- No id belongs to two rules, since the index by id can name only one resource for it. -/
theorem Consistent.id_injective {t : RuleTable R} (ht : t.Consistent) {i : Int} {r r' : Resource}
    {e e' : Edition R} (h : t.get? r = some e) (hi : Rule.id e.rule = some i)
    (h' : t.get? r' = some e') (hi' : Rule.id e'.rule = some i) : r = r' := by
  have hr : t.byId.get? i = some r := ht.byId_iff.mpr ⟨e, h, hi⟩
  have hr' : t.byId.get? i = some r' := ht.byId_iff.mpr ⟨e', h', hi'⟩
  exact Option.some.inj (hr.symm.trans hr')

/-! ## Removing -/

theorem remove_of_none {t : RuleTable R} {r : Resource} (h : t.get? r = none) :
    t.remove r = t := by
  simp [remove, remove?, h]

/-- A removal takes the rule out of the index by resource, and its id, if it has one, out of the
other. This is the only place where both indices are looked at together. -/
theorem remove_of_some {t : RuleTable R} {r : Resource} {e : Edition R} (h : t.get? r = some e) :
    t.remove r = {
      byResource := t.byResource.erase r
      byId := match Rule.id e.rule with
        | some id => t.byId.erase id
        | none => t.byId } := by
  rw [remove, remove?, h]
  rfl

/-- Removing leaves every other resource as it is. It makes no difference whether there was a rule.
-/
theorem get?_remove (t : RuleTable R) (r r' : Resource) :
    (t.remove r).get? r' = if r' = r then none else t.get? r' := by
  cases h : t.get? r with
  | none =>
    rw [remove_of_none h]
    by_cases e : r' = r
    · subst e
      simp [h]
    · simp [e]
  | some e =>
    rw [remove_of_some h]
    simp [get?]

/-- An id that led to the resource leads nowhere afterwards, and every other one leads where it did.
The table has to be consistent: otherwise an id could lead to a resource whose rule does not have
it, and would stay. -/
theorem byId_remove_iff {t : RuleTable R} (ht : t.Consistent) (r : Resource) {i : Int}
    {r' : Resource} :
    (t.remove r).byId.get? i = some r' ↔ t.byId.get? i = some r' ∧ r' ≠ r := by
  cases h : t.get? r with
  | none =>
    rw [remove_of_none h]
    refine ⟨fun hi => ⟨hi, ?_⟩, And.left⟩
    rintro rfl
    obtain ⟨e, he, -⟩ := ht.byId_iff.mp hi
    rw [h] at he
    cases he
  | some e =>
    have hb : (t.remove r).byId.get? i =
        if Rule.id e.rule = some i then none else t.byId.get? i := by
      rw [remove_of_some h]
      cases hid : Rule.id e.rule with
      | none => simp
      | some j => simp [eq_comm]
    rw [hb]
    -- an id leads to `r` exactly if it is the id of the rule that is removed
    by_cases hid : Rule.id e.rule = some i
    · have hi : t.byId.get? i = some r := ht.byId_iff.mpr ⟨e, h, hid⟩
      rw [if_pos hid, hi]
      constructor
      · intro hn
        cases hn
      · rintro ⟨hr, hne⟩
        exact absurd (Option.some.inj hr).symm hne
    · rw [if_neg hid]
      refine ⟨fun hi => ⟨hi, ?_⟩, And.left⟩
      rintro rfl
      obtain ⟨e', he', hid'⟩ := ht.byId_iff.mp hi
      rw [h] at he'
      cases he'
      exact hid hid'

/-- A removal keeps the indices in step, for it takes out of both what belongs to one rule. -/
theorem Consistent.remove {t : RuleTable R} (ht : t.Consistent) (r : Resource) :
    (t.remove r).Consistent where
  keyed {r'} {e} h := by
    rw [get?_remove] at h
    split at h
    · cases h
    · exact ht.keyed h
  byId_iff {i} {r'} := by
    rw [byId_remove_iff ht, ht.byId_iff, get?_remove]
    by_cases e : r' = r <;> simp [e]

/-! ## Entering a rule -/

/-- Of the rules at other resources, the one that has the id is gone, and no other. The rule at the
resource itself is left to what comes after, which replaces it in any case. -/
theorem get?_removeElsewhere {t : RuleTable R} (ht : t.Consistent) (id : Option Int)
    (r r' : Resource) :
    (t.removeElsewhere id r).get? r' =
      if r' = r then t.get? r' else (t.get? r').filter fun e => !Rule.hasId id e.rule := by
  cases id with
  | none => cases h : t.get? r' <;> simp [removeElsewhere, h, Option.filter]
  | some i =>
    cases hi : t.byId.get? i with
    | none =>
      have hno : ∀ e, t.get? r' = some e → Rule.id e.rule ≠ some i := fun e he hid => by
        rw [ht.byId_iff.mpr ⟨e, he, hid⟩] at hi
        cases hi
      cases h : t.get? r' with
      | none => simp [removeElsewhere, hi, h]
      | some e => simp [removeElsewhere, hi, h, hno e h, Option.filter_some]
    | some previous =>
      obtain ⟨e, he, hid⟩ := ht.byId_iff.mp hi
      have hother : ∀ e', t.get? r' = some e' → Rule.id e'.rule = some i → r' = previous :=
        fun e' he' hid' => ht.id_injective he' hid' he hid
      -- the rule that has the id is spared at the resource itself, and removed anywhere else
      by_cases hp : previous = r
      · by_cases e' : r' = r
        · simp [removeElsewhere, hi, hp, e']
        · cases h : t.get? r' with
          | none => simp [removeElsewhere, hi, hp, h]
          | some e'' =>
            have hne : Rule.id e''.rule ≠ some i := fun hid'' => e' ((hother e'' h hid'').trans hp)
            simp [removeElsewhere, hi, hp, h, hne, Option.filter_some]
      · simp only [removeElsewhere, Option.bind_some, hi, hp, if_false, get?_remove]
        by_cases e' : r' = previous
        · subst e'
          simp [hp, he, hid, Option.filter_some]
        · cases h : t.get? r' with
          | none => simp [e']
          | some e'' =>
            have hne : Rule.id e''.rule ≠ some i := fun hid'' => e' (hother e'' h hid'')
            simp [e', hne, Option.filter_some]

theorem Consistent.removeElsewhere {t : RuleTable R} (ht : t.Consistent) (id : Option Int)
    (r : Resource) : (t.removeElsewhere id r).Consistent := by
  unfold RuleTable.removeElsewhere
  split
  · split
    · exact ht
    · exact ht.remove _
  · exact ht

/-- A table cleared of all rules that compete with a rule. This is a table between two others: the
program goes through it whenever it takes in a rule, and nobody else sees it. -/
def cleared (t : RuleTable R) (rule : R) : RuleTable R :=
  (t.removeElsewhere (Rule.id rule) (Rule.resource rule)).remove (Rule.resource rule)

theorem Consistent.cleared {t : RuleTable R} (ht : t.Consistent) (rule : R) :
    (t.cleared rule).Consistent := (ht.removeElsewhere _ _).remove _

/-- **Exactly the competitors of the rule make way for it.** From here on no proof mentions the
index by id. -/
theorem get?_cleared {t : RuleTable R} (ht : t.Consistent) (rule : R) (r : Resource) :
    (t.cleared rule).get? r = (t.get? r).filter fun e => !Rule.competes e.rule rule := by
  rw [cleared, get?_remove, get?_removeElsewhere ht]
  cases h : t.get? r with
  | none => simp
  | some e =>
    have hk : Rule.resource e.rule = r := ht.keyed h
    by_cases e' : r = Rule.resource rule <;> simp [e', Rule.competes, hk, Option.filter]

/-- A table that has taken in a rule. -/
def entered (t : RuleTable R) (serial : Nat) (rule : R) : RuleTable R where
  byResource := (t.cleared rule).byResource.insert (Rule.resource rule) { serial, rule }
  byId := match Rule.id rule with
    | some id => (t.cleared rule).byId.insert id (Rule.resource rule)
    | none => (t.cleared rule).byId

/-- A rule is taken in unless the same rule, as `==` has it, stands at its resource already. -/
theorem upsert?_eq (t : RuleTable R) (serial : Nat) (rule : R) :
    t.upsert? serial rule =
      if (t.get? (Rule.resource rule)).any fun e => e.rule == rule then none
      else some (t.entered serial rule) := rfl

/-- What stands where after a rule is entered: itself at its resource, and elsewhere what does not
compete with it. The edition carries the serial number of this change, and all others keep theirs.
-/
theorem get?_entered {t : RuleTable R} (ht : t.Consistent) (serial : Nat) (rule : R)
    (r : Resource) :
    (t.entered serial rule).get? r =
      if r = Rule.resource rule then some { serial, rule }
      else (t.get? r).filter fun e => !Rule.competes e.rule rule := by
  rw [← get?_cleared ht]
  simp [entered, get?]

/-- Entering a rule keeps the indices in step. The table was cleared first, so nothing that is left
has the id of the rule or stands at its resource. -/
theorem Consistent.entered {t : RuleTable R} (ht : t.Consistent) (serial : Nat) (rule : R) :
    (t.entered serial rule).Consistent where
  keyed {r} {e} h := by
    rw [get?_entered ht] at h
    split at h
    · cases h
      exact (‹r = _›).symm
    · exact ht.keyed (Option.filter_eq_some_iff.mp h).1
  byId_iff {i} {r} := by
    have hc := (ht.cleared rule).byId_iff (i := i) (r := r)
    rw [get?_cleared ht] at hc
    rw [get?_entered ht]
    by_cases hid : Rule.id rule = some i
    · -- the id is that of the new rule, and all others of that id have made way for it
      have hb : (t.entered serial rule).byId.get? i = some (Rule.resource rule) := by
        simp [RuleTable.entered, hid]
      rw [hb]
      by_cases e : r = Rule.resource rule
      · simp [e, hid]
      · have e' : ¬ Rule.resource rule = r := fun h => e h.symm
        simp only [Option.some.injEq, e', e, if_false, false_iff, not_exists, not_and]
        intro e'' h'' hid''
        obtain ⟨-, hn⟩ := Option.filter_eq_some_iff.mp h''
        simp [Rule.competes, hid, hid''] at hn
    · have hb : (t.entered serial rule).byId.get? i = (t.cleared rule).byId.get? i := by
        cases h : Rule.id rule with
        | none => simp [RuleTable.entered, h]
        | some j =>
          have hne : ¬ i = j := fun e => hid (e ▸ h)
          simp [RuleTable.entered, h, hne]
      rw [hb, hc]
      by_cases e : r = Rule.resource rule
      · subst e
        simp only [if_true, Option.some.injEq, exists_eq_left', hid, iff_false, not_exists, not_and]
        intro e' h' _
        obtain ⟨h₁, h₂⟩ := Option.filter_eq_some_iff.mp h'
        simp [Rule.competes, ht.keyed h₁] at h₂
      · simp [e]

/-! ## Changes -/

/-- Where the rule that a deletion names is found. The id comes first: a resource is looked at only
if the deletion names no id, or one that no rule has. -/
def target? (t : RuleTable R) (id : Option Int) (resource : Option Resource) : Option Resource :=
  (id.bind t.byId.get?).orElse fun _ => resource

theorem change?_delete (t : RuleTable R) (serial : Nat) (id : Option Int)
    (resource : Option Resource) :
    t.change? serial (.delete id resource) = (t.target? id resource).bind t.remove? := rfl

theorem remove?_eq_some_iff {t t' : RuleTable R} {r : Resource} :
    t.remove? r = some t' ↔ (t.get? r).isSome ∧ t' = t.remove r := by
  cases h : t.get? r with
  | none => simp [remove?, h]
  | some e => simp [remove, remove?, h, eq_comm]

/-- A change that takes effect enters its rule, or removes the one at its target. All that is shown
of tables further on starts from these two cases, and from the two in which nothing happens. -/
theorem change?_eq_some_cases {t t' : RuleTable R} {serial : Nat} {u : RuleUpdate R}
    (h : t.change? serial u = some t') :
    (∃ rule, u = .upsert rule ∧ t' = t.entered serial rule ∧
      ∀ e, t.get? (Rule.resource rule) = some e → (e.rule == rule) = false) ∨
    (∃ id resource r, u = .delete id resource ∧ t.target? id resource = some r ∧
      (t.get? r).isSome ∧ t' = t.remove r) := by
  cases u with
  | upsert rule =>
    refine Or.inl ⟨rule, rfl, ?_⟩
    rw [change?, upsert?_eq] at h
    split at h
    · cases h
    · rename_i hne
      refine ⟨(Option.some.inj h).symm, fun e he => ?_⟩
      simpa [he] using hne
  | delete id resource =>
    rw [change?_delete] at h
    obtain ⟨r, hr, h'⟩ := Option.bind_eq_some_iff.mp h
    obtain ⟨hs, rfl⟩ := remove?_eq_some_iff.mp h'
    exact Or.inr ⟨id, resource, r, rfl, hr, hs, rfl⟩

/-- A change takes no effect if its rule is in force already, or if nothing is at its target. In
either case the version of the book stays what it was. -/
theorem change?_eq_none_cases {t : RuleTable R} {serial : Nat} {u : RuleUpdate R}
    (h : t.change? serial u = none) :
    (∃ rule e, u = .upsert rule ∧ t.get? (Rule.resource rule) = some e ∧ (e.rule == rule) = true) ∨
    (∃ id resource, u = .delete id resource ∧
      ∀ r, t.target? id resource = some r → t.get? r = none) := by
  cases u with
  | upsert rule =>
    rw [change?, upsert?_eq] at h
    split at h
    · rename_i hany
      obtain ⟨e, he, hsame⟩ := (Option.any_eq_true _ _).mp hany
      exact Or.inl ⟨rule, e, rfl, he, hsame⟩
    · cases h
  | delete id resource =>
    refine Or.inr ⟨id, resource, rfl, fun r hr => ?_⟩
    rw [change?_delete, hr, Option.bind_some] at h
    exact Option.map_eq_none_iff.mp h

theorem Consistent.change {t t' : RuleTable R} (ht : t.Consistent) {serial : Nat}
    {u : RuleUpdate R} (h : t.change? serial u = some t') : t'.Consistent := by
  rcases change?_eq_some_cases h with ⟨rule, -, rfl, -⟩ | ⟨id, resource, r, -, -, -, rfl⟩
  · exact ht.entered serial rule
  · exact ht.remove r

/-! ## The rules of a table -/

/-- The editions of a table are those that can be looked up. The order of the list is that of the
entries, and nothing depends on it. -/
theorem mem_toList_iff {t : RuleTable R} (ht : t.Consistent) (e : Edition R) :
    e ∈ t.toList ↔ t.get? (Rule.resource e.rule) = some e := by
  simp only [toList, Table.values, List.mem_map, get?]
  constructor
  · rintro ⟨⟨r, e'⟩, hm, rfl⟩
    have hr : t.get? r = some e' := (t.byResource.mem_entries_iff r e').mp hm
    rw [ht.keyed hr]
    exact hr
  · intro h
    exact ⟨_, (t.byResource.mem_entries_iff _ e).mpr h, rfl⟩

theorem mem_rules_iff {t : RuleTable R} (ht : t.Consistent) (rule : R) :
    rule ∈ t.rules ↔ ∃ e, t.get? (Rule.resource rule) = some e ∧ e.rule = rule := by
  simp only [rules, List.mem_map, mem_toList_iff ht]
  constructor
  · rintro ⟨e, he, rfl⟩
    exact ⟨e, he, rfl⟩
  · rintro ⟨e, he, rfl⟩
    exact ⟨e, he, rfl⟩

theorem mem_rules_of_get? {t : RuleTable R} (ht : t.Consistent) {r : Resource} {e : Edition R}
    (h : t.get? r = some e) : e.rule ∈ t.rules :=
  (mem_rules_iff ht e.rule).mpr ⟨e, by rw [ht.keyed h]; exact h, rfl⟩

/-- **No two rules of a table compete.** They stand at different resources, since the entries have
different keys, and they have different ids, since an id leads to one resource. -/
theorem Consistent.pairwise {t : RuleTable R} (ht : t.Consistent) :
    t.rules.Pairwise fun a b => Rule.competes a b = false := by
  have hkeys : t.byResource.entries.Pairwise fun p q => p.1 ≠ q.1 :=
    List.pairwise_map.mp t.byResource.nodup
  simp only [rules, toList, Table.values, List.pairwise_map]
  -- entries have different keys and a rule stands at its own, so two rules could only share an id
  refine hkeys.imp_of_mem fun {p q} hp hq hne => ?_
  have hp' : t.get? p.1 = some p.2 := (t.byResource.mem_entries_iff _ _).mp hp
  have hq' : t.get? q.1 = some q.2 := (t.byResource.mem_entries_iff _ _).mp hq
  have hr : ¬ Rule.resource p.2.rule = Rule.resource q.2.rule := by
    rw [ht.keyed hp', ht.keyed hq']
    exact hne
  cases hid : Rule.id q.2.rule with
  | none => simp [Rule.competes, hr, hid]
  | some i =>
    have hi : ¬ Rule.id p.2.rule = some i := fun h => hne (ht.id_injective hp' h hq' hid)
    simp [Rule.competes, hr, hid, hi]

end RuleTable

/-! ## Rule books -/

namespace RuleBook

/-- Both tables of a book are consistent. -/
structure Consistent (b : RuleBook) : Prop where
  limits : b.limits.Consistent
  degrades : b.degrades.Consistent

theorem consistent_empty : empty.Consistent :=
  ⟨RuleTable.consistent_empty, RuleTable.consistent_empty⟩

/-- A change that takes effect moves the version on by one, and changes the table it is meant for.
The other table is the same as before. -/
theorem change?_eq_some_cases {b b' : RuleBook} {c : RuleChange} (h : b.change? c = some b') :
    (∃ u t, c = .rateLimit u ∧ b.limits.change? (b.version + 1) u = some t ∧
      b' = { b with version := b.version + 1, limits := t }) ∨
    (∃ u t, c = .degrade u ∧ b.degrades.change? (b.version + 1) u = some t ∧
      b' = { b with version := b.version + 1, degrades := t }) := by
  cases c with
  | rateLimit u =>
    obtain ⟨t, ht, rfl⟩ := Option.map_eq_some_iff.mp h
    exact Or.inl ⟨u, t, rfl, ht, rfl⟩
  | degrade u =>
    obtain ⟨t, ht, rfl⟩ := Option.map_eq_some_iff.mp h
    exact Or.inr ⟨u, t, rfl, ht, rfl⟩

theorem Consistent.change {b b' : RuleBook} (hb : b.Consistent) {c : RuleChange}
    (h : b.change? c = some b') : b'.Consistent := by
  rcases change?_eq_some_cases h with ⟨u, t, -, ht, rfl⟩ | ⟨u, t, -, ht, rfl⟩
  · exact ⟨hb.limits.change ht, hb.degrades⟩
  · exact ⟨hb.limits, hb.degrades.change ht⟩

/-- The book after a change, which may change nothing. Then it is the same book, of the same
version. -/
def after (b : RuleBook) (c : RuleChange) : RuleBook := (b.change? c).getD b

/-- The book that changes make of the book without rules. -/
def ofChanges (cs : List RuleChange) : RuleBook := cs.foldl after empty

theorem Consistent.after {b : RuleBook} (hb : b.Consistent) (c : RuleChange) :
    (b.after c).Consistent := by
  unfold RuleBook.after
  cases h : b.change? c with
  | none => exact hb
  | some b' => exact hb.change h

/-- Every run of changes keeps a book consistent. -/
theorem Consistent.foldl_after {cs : List RuleChange} :
    ∀ {b : RuleBook}, b.Consistent → (cs.foldl RuleBook.after b).Consistent := by
  induction cs with
  | nil => exact id
  | cons c cs ih => exact fun hb => ih (hb.after c)

/-- **Every book that can come about is consistent.** There is no other way to a book than by
changes of the empty one, so the theorems below need no assumption about their book. -/
theorem consistent_ofChanges (cs : List RuleChange) : (ofChanges cs).Consistent :=
  Consistent.foldl_after consistent_empty

end RuleBook
end Floodgate
