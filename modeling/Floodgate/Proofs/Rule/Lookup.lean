import Floodgate.Proofs.Rule.Indices
import Floodgate.Resource.Candidates

/-!
# The rule for a request

Rules are looked up along the candidates of a request. `RuleTable.firstEnabled?_eq_findSome?` turns
that into a search for the first candidate that has an enabled rule, and
`Identity.candidates_cases` says how candidates lie: the service comes right before the service
default, and nothing else of either scope is among them. So when the rule of the service default is
found, the request has a service, and the service has no rule of its own.

`RuleBook.inForce?` is the same from the side of a resource: the degrade rule that its breaker
should run on. `RuleBook.inForce?_bind` says that the two sides agree.
-/

set_option autoImplicit false

namespace Floodgate

/-! ## Candidates -/

/-- A request is covered by the global resource alone, or by a service and what it has in it. The
second form is what all lookups of a request with a service go along. -/
theorem Identity.candidates_cases (i : Identity) :
    i.candidates = [.global] ∨
      ∃ paths name, (∀ r ∈ paths, r.scope = .api) ∧
        i.candidates = paths ++ [.service name, .serviceDefault, .global] := by
  unfold candidates
  split
  · rename_i name _
    refine Or.inr ⟨_, name, ?_, rfl⟩
    intro r hr
    rcases List.mem_append.mp hr with hr | hr
    · split at hr
      · rw [List.mem_singleton.mp hr]
        rfl
      · cases hr
    · split at hr
      · rw [List.mem_singleton.mp hr]
        rfl
      · cases hr
  · exact Or.inl rfl

namespace Resource

theorem bind_of_ne {r : Resource} (h : r.scope ≠ .serviceDefault) (candidates : List Resource) :
    r.bind candidates = r := if_neg h

theorem eq_serviceDefault_of_scope {r : Resource} (h : r.scope = .serviceDefault) :
    r = .serviceDefault := by
  cases r <;> first | rfl | cases h

/-- **A rule of the service default is bound to the service of the request**, which is the first
candidate that is one. -/
theorem bind_serviceDefault {paths rest : List Resource} (hpaths : ∀ r ∈ paths, r.scope = .api)
    (name : String) :
    serviceDefault.bind (paths ++ .service name :: rest) = .service name := by
  have hnone : (paths.find? fun c => c.scope = .service) = none := by
    rw [List.find?_eq_none]
    intro r hr
    simp [hpaths r hr]
  have hd : serviceDefault.scope = .serviceDefault := rfl
  rw [bind, if_pos hd, List.find?_append, hnone]
  rfl

end Resource

/-! ## The first enabled rule -/

namespace RuleTable

variable {R : Type} [Rule R]

/-- The rule for a request is the first enabled one along its candidates. A rule that is not enabled
does not hide those behind it. -/
theorem firstEnabled?_eq_findSome? (t : RuleTable R) (candidates : List Resource) :
    t.firstEnabled? candidates = candidates.findSome? t.enabled? := by
  unfold firstEnabled?
  induction candidates with
  | nil => rfl
  | cons r rest ih =>
    cases hr : t.get? r with
    | none => simp [hr, enabled?, ih]
    | some e => cases he : Rule.enabled e.rule <;> simp [hr, he, enabled?, ih, Option.filter]

theorem get?_of_enabled? {t : RuleTable R} {r : Resource} {e : Edition R}
    (h : t.enabled? r = some e) : t.get? r = some e := (Option.filter_eq_some_iff.mp h).1

theorem Consistent.keyed_enabled {t : RuleTable R} (ht : t.Consistent) {r : Resource}
    {e : Edition R} (h : t.enabled? r = some e) : Rule.resource e.rule = r :=
  ht.keyed (get?_of_enabled? h)

/-- The enabled rules are those that are found at their own resources. -/
theorem mem_toList_enabled_iff {t : RuleTable R} (ht : t.Consistent) (e : Edition R) :
    (e ∈ t.toList ∧ Rule.enabled e.rule = true) ↔
      t.enabled? (Rule.resource e.rule) = some e := by
  rw [mem_toList_iff ht, enabled?, Option.filter_eq_some_iff]

/-- The resources that have an enabled rule, read off the rules. -/
theorem enabled?_isSome_iff {t : RuleTable R} (ht : t.Consistent) (r : Resource) :
    (t.enabled? r).isSome ↔
      r ∈ (t.toList.filter fun e => Rule.enabled e.rule).map fun e => Rule.resource e.rule := by
  rw [Option.isSome_iff_exists, List.mem_map]
  constructor
  · rintro ⟨e, he⟩
    have hkey := ht.keyed_enabled he
    subst hkey
    exact ⟨e, List.mem_filter.mpr ((mem_toList_enabled_iff ht e).mpr he), rfl⟩
  · rintro ⟨e, he, rfl⟩
    exact ⟨e, (mem_toList_enabled_iff ht e).mp (List.mem_filter.mp he)⟩

end RuleTable

/-! ## The rule in force for a resource -/

namespace RuleBook

/-- The degrade rule that a breaker of a resource runs on: the resource's own or, for a service
without one, that of the service default. A path without a rule of its own has no breaker. -/
def inForce? (b : RuleBook) (r : Resource) : Option (Edition DegradeRule) :=
  (b.degrades.enabled? r).orElse fun _ => if r.scope = .service then b.defaultDegrade? else none

/-- A rule of the resource itself comes before that of the service default. -/
theorem inForce?_of_enabled? {b : RuleBook} {r : Resource} {e : Edition DegradeRule}
    (h : b.degrades.enabled? r = some e) : b.inForce? r = some e := by
  rw [inForce?, h]
  rfl

theorem inForce?_eq_some_iff {b : RuleBook} {r : Resource} {e : Edition DegradeRule} :
    b.inForce? r = some e ↔ b.degrades.enabled? r = some e ∨
      (r.scope = .service ∧ b.degrades.enabled? r = none ∧ b.defaultDegrade? = some e) := by
  cases h : b.degrades.enabled? r with
  | some e' => simp [inForce?, h]
  | none => by_cases hs : r.scope = .service <;> simp [inForce?, h, hs]

/-- If the rule of the service default is found along the candidates, the service has none. It was
looked at just before. -/
theorem enabled?_of_findSome? {b : RuleBook} (hb : b.Consistent) {e : Edition DegradeRule}
    {paths : List Resource} (hpaths : ∀ r ∈ paths, r.scope = .api) {name : String}
    (h : (paths ++ [Resource.service name, .serviceDefault, .global]).findSome?
      b.degrades.enabled? = some e)
    (hr : e.rule.resource = .serviceDefault) :
    b.degrades.enabled? (.service name) = none ∧ b.defaultDegrade? = some e := by
  have hkey : ∀ {r}, b.degrades.enabled? r = some e → r = .serviceDefault := fun he =>
    (hb.degrades.keyed_enabled he).symm.trans hr
  -- no candidate before the default may have an enabled rule, or that rule would be found
  rw [List.findSome?_append] at h
  cases hp : paths.findSome? b.degrades.enabled? with
  | some e' =>
    rw [hp] at h
    cases h
    obtain ⟨r, hmem, he⟩ := List.exists_of_findSome?_eq_some hp
    have hscope := hpaths r hmem
    rw [hkey he] at hscope
    cases hscope
  | none =>
    rw [hp, Option.none_or, List.findSome?_cons] at h
    cases hs : b.degrades.enabled? (.service name) with
    | some e' =>
      rw [hs] at h
      cases h
      cases hkey hs
    | none =>
      rw [hs] at h
      dsimp only at h
      rw [List.findSome?_cons] at h
      cases hd : b.degrades.enabled? .serviceDefault with
      | some e' =>
        rw [hd] at h
        exact ⟨rfl, hd.trans h⟩
      | none =>
        rw [hd] at h
        dsimp only at h
        rw [List.findSome?_singleton] at h
        cases hkey h

/-- The rule that is found for a request is in force for the resource that it is bound to, and that
is never the service default. -/
theorem inForce?_bind {b : RuleBook} (hb : b.Consistent) {i : Identity} {e : Edition DegradeRule}
    (h : b.degrades.firstEnabled? i.candidates = some e) :
    b.inForce? (e.rule.resource.bind i.candidates) = some e ∧
      e.rule.resource.bind i.candidates ≠ .serviceDefault := by
  rw [RuleTable.firstEnabled?_eq_findSome?] at h
  by_cases hd : e.rule.resource.scope = .serviceDefault
  · have hr := Resource.eq_serviceDefault_of_scope hd
    rcases i.candidates_cases with hi | ⟨paths, name, hpaths, hi⟩
    · rw [hi, List.findSome?_singleton] at h
      have hg : e.rule.resource = .global := hb.degrades.keyed_enabled h
      rw [hg] at hr
      cases hr
    · rw [hi] at h
      rw [hi, hr, Resource.bind_serviceDefault hpaths]
      obtain ⟨hown, hdefault⟩ := enabled?_of_findSome? hb hpaths h hr
      exact ⟨inForce?_eq_some_iff.mpr (Or.inr ⟨rfl, hown, hdefault⟩), fun heq => by cases heq⟩
  · rw [Resource.bind_of_ne hd]
    obtain ⟨before, r, rest, -, hr, -⟩ := List.findSome?_eq_some_iff.mp h
    have hkey : e.rule.resource = r := hb.degrades.keyed_enabled hr
    rw [hkey]
    refine ⟨inForce?_of_enabled? hr, ?_⟩
    rintro rfl
    rw [hkey] at hd
    exact hd rfl

end RuleBook
end Floodgate
