import Floodgate.Proofs.Admission.Rules
import Floodgate.Proofs.Limiter
import Floodgate.Proofs.Resource.Order

/-!
# The most specific rule decides

Limits and breakers find the rule for a request in the same way: they go through its candidates
until one of them has an enabled rule. What that comes to can be said without going through
anything. Of all enabled rules for a candidate, it is the one for the greatest (`IsMostSpecific`),
and none is found exactly if none applies. The reason is that candidates come in descending order,
so that the first that is found is the greatest, and that a consistent table has one rule for a
resource at most.

`Identity.BindsTo` says what the request is then counted under: the resource of the rule, but for
the service default the request's own service.
-/

set_option autoImplicit false

namespace Floodgate

/-! ## The most specific rule -/

section

variable {R : Type} [Rule R]

/-- A rule is in force for a request with these candidates. -/
def Applies (candidates : List Resource) (rule : R) : Prop :=
  Rule.enabled rule = true ∧ Rule.resource rule ∈ candidates

/-- Of the rules that apply to a request, the one for the greatest resource. -/
structure IsMostSpecific (rules : List R) (candidates : List Resource) (rule : R) : Prop where
  mem : rule ∈ rules
  applies : Applies candidates rule
  greatest : ∀ other ∈ rules, Applies candidates other →
    (Rule.resource other).atMost (Rule.resource rule) = true

namespace RuleTable

variable {t : RuleTable R} {candidates : List Resource} {e : Edition R}

theorem enabled?_of_applies (ht : t.Consistent) (he : e ∈ t.toList)
    (happ : Applies candidates e.rule) : t.enabled? (Rule.resource e.rule) = some e :=
  (mem_toList_enabled_iff ht e).mp ⟨he, happ.1⟩

theorem firstEnabled?_eq_none_iff (ht : t.Consistent) :
    t.firstEnabled? candidates = none ↔ ∀ rule ∈ t.rules, ¬ Applies candidates rule := by
  rw [firstEnabled?_eq_findSome?, List.findSome?_eq_none_iff]
  constructor
  · intro hnone rule hrule happ
    obtain ⟨e, he, rfl⟩ := List.mem_map.mp hrule
    have hfound := enabled?_of_applies ht he happ
    rw [hnone _ happ.2] at hfound
    cases hfound
  · intro hno r hr
    cases hfound : t.enabled? r with
    | none => rfl
    | some e =>
      have hkey := ht.keyed_enabled hfound
      subst hkey
      obtain ⟨hmem, henabled⟩ := (mem_toList_enabled_iff ht e).mpr hfound
      exact absurd ⟨henabled, hr⟩ (hno e.rule (List.mem_map_of_mem hmem))

/-- What is found first is the greatest, as the candidates descend. -/
theorem isMostSpecific_of_firstEnabled? (ht : t.Consistent)
    (hdesc : Resource.Descending candidates) (h : t.firstEnabled? candidates = some e) :
    e ∈ t.toList ∧ IsMostSpecific t.rules candidates e.rule := by
  rw [firstEnabled?_eq_findSome?] at h
  obtain ⟨before, r, rest, rfl, hfound, hbefore⟩ := List.findSome?_eq_some_iff.mp h
  have hkey := ht.keyed_enabled hfound
  subst hkey
  obtain ⟨hmem, henabled⟩ := (mem_toList_enabled_iff ht e).mpr hfound
  refine ⟨hmem, List.mem_map_of_mem hmem, ⟨henabled, by simp⟩, fun other hother happ => ?_⟩
  obtain ⟨e', he', rfl⟩ := List.mem_map.mp hother
  have hfound' := enabled?_of_applies ht he' happ
  obtain ⟨-, hrest, -⟩ := List.pairwise_append.mp hdesc
  rcases List.mem_append.mp happ.2 with hr | hr
  · rw [hbefore _ hr] at hfound'
    cases hfound'
  · rcases List.mem_cons.mp hr with hr | hr
    · rw [hr, Resource.atMost, Resource.order_self]
      rfl
    · rw [Resource.atMost, (List.pairwise_cons.mp hrest).1 _ hr]
      rfl

/-- **The rule that is found for a request is the most specific one that applies to it.** -/
theorem firstEnabled?_eq_some_iff (ht : t.Consistent) (hdesc : Resource.Descending candidates) :
    t.firstEnabled? candidates = some e ↔
      e ∈ t.toList ∧ IsMostSpecific t.rules candidates e.rule := by
  refine ⟨isMostSpecific_of_firstEnabled? ht hdesc, fun ⟨he, hmost⟩ => ?_⟩
  cases hfirst : t.firstEnabled? candidates with
  | none => exact absurd hmost.applies ((firstEnabled?_eq_none_iff ht).mp hfirst _ hmost.mem)
  | some e' =>
    obtain ⟨he', hmost'⟩ := isMostSpecific_of_firstEnabled? ht hdesc hfirst
    -- each of the two is at most as specific as the other, and a resource has one rule
    have hsame : Rule.resource e.rule = Rule.resource e'.rule :=
      Resource.eq_of_order_eq (Std.OrientedCmp.isLE_antisymm
        (hmost'.greatest _ hmost.mem hmost.applies) (hmost.greatest _ hmost'.mem hmost'.applies))
    have hfound := enabled?_of_applies ht he hmost.applies
    rw [hsame, enabled?_of_applies ht he' hmost'.applies] at hfound
    exact hfound

theorem map_firstEnabled?_eq_some_iff (ht : t.Consistent) (hdesc : Resource.Descending candidates)
    {rule : R} :
    (t.firstEnabled? candidates).map Edition.rule = some rule ↔
      IsMostSpecific t.rules candidates rule := by
  rw [Option.map_eq_some_iff]
  constructor
  · rintro ⟨e, he, rfl⟩
    exact ((firstEnabled?_eq_some_iff ht hdesc).mp he).2
  · intro hmost
    obtain ⟨e, he, rfl⟩ := List.mem_map.mp hmost.mem
    exact ⟨e, (firstEnabled?_eq_some_iff ht hdesc).mpr ⟨he, hmost⟩, rfl⟩

end RuleTable

end

/-! ## What a request is counted under -/

/-- What a request is counted under when a rule for a resource applies to it: never the service
default, for which its own service stands. -/
structure Identity.BindsTo (i : Identity) (matched bound : Resource) : Prop where
  ne_serviceDefault : bound ≠ .serviceDefault
  eq_service : matched = .serviceDefault → bound = .service (Text.trim i.service)
  eq_matched : matched ≠ .serviceDefault → bound = matched

theorem Identity.bindsTo_bind (i : Identity) {matched : Resource} (h : matched ∈ i.candidates) :
    i.BindsTo matched (matched.bind i.candidates) := by
  by_cases hd : matched = .serviceDefault
  · subst hd
    have hservice : Resource.serviceDefault.bind i.candidates = .service (Text.trim i.service) := by
      rcases i.candidates_shapes with hi | ⟨paths, hi, -, hscope⟩
      · rw [hi] at h
        cases List.mem_singleton.mp h
      · rw [hi]
        exact Resource.bind_serviceDefault hscope _
    rw [hservice]
    exact ⟨nofun, fun _ => rfl, fun hne => absurd rfl hne⟩
  · rw [Resource.bind_of_ne fun hs => hd (Resource.eq_serviceDefault_of_scope hs)]
    exact ⟨hd, fun he => absurd he hd, fun _ => rfl⟩

/-- What a decided request is counted under. -/
def LimitDecision.bound : LimitDecision → Resource
  | .allowed lease => lease.resource
  | .denied resource _ _ => resource

theorem Limiter.bound_permit {book : RuleBook} {candidates : List Resource} {rule : LimitRule}
    (h : resolve book candidates = some rule) (stats : StatStore) (now : Nat) :
    (permit book stats candidates now).1.bound = rule.resource.bind candidates := by
  unfold permit
  rw [h]
  dsimp only
  generalize hd : permitUnder rule stats candidates now = decided
  have hheld := held_permitUnder rule stats candidates now
  rw [hd] at hheld
  obtain ⟨decision, stats'⟩ := decided
  cases hheld with
  | crowded acquired => rfl
  | allowed acquired room => rfl
  | spent acquired room => rfl

namespace Registry

variable {g : Registry} {book : RuleBook} {candidates : List Resource}

/-- What can come of looking a breaker up: no rule applies, or the present breaker is found at the
resource that the rule is bound to. -/
theorem lookup_cases (g : Registry) (book : RuleBook) (candidates : List Resource) :
    (book.degrades.firstEnabled? candidates = none ∧ (g.lookup book candidates).1 = none) ∨
    ∃ e h, book.degrades.firstEnabled? candidates = some e ∧
      (g.lookup book candidates).1 = some h ∧ h.key = e.rule.resource.bind candidates ∧
      (g.lookup book candidates).2.held? h = (g.lookup book candidates).2.get? h.key := by
  cases he : book.degrades.firstEnabled? candidates with
  | none => exact Or.inl ⟨rfl, by rw [lookup, he]⟩
  | some e =>
    obtain ⟨h, hh⟩ := Option.isSome_iff_exists.mp
      (g.handle?_withOne_isSome (e.rule.resource.bind candidates) e)
    have hkey := Roster.key_of_handle? hh
    have hheld : (g.lookup book candidates).2.breakers.handle? h.key = some h := by
      rw [lookup_eq he hh, Roster.handle?_modify, hkey]
      exact hh
    exact Or.inr ⟨e, h, rfl, by rw [lookup_eq he hh], hkey, Roster.get?_of_handle? hheld⟩

/-- In a registry that follows the rules, the breaker that is found runs on the rule that is found,
and stands where that rule is bound to. -/
theorem Follows.lookup_cases (hg : g.Follows book) (hb : book.Consistent) (i : Identity) :
    (book.degrades.firstEnabled? i.candidates = none ∧ (g.lookup book i.candidates).1 = none) ∨
    ∃ e h b, book.degrades.firstEnabled? i.candidates = some e ∧
      (g.lookup book i.candidates).1 = some h ∧ h.key = e.rule.resource.bind i.candidates ∧
      (g.lookup book i.candidates).2.held? h = some b ∧ b.edition = e ∧ b.resource = h.key := by
  rcases Registry.lookup_cases g book i.candidates with hnone | ⟨e, h, he, hfound, hkey, hheld⟩
  · exact Or.inl hnone
  · obtain ⟨b, hview⟩ : ∃ b, (g.lookup book i.candidates).2.get? h.key = some b :=
      ⟨_, by rw [hkey, g.get?_lookup he, if_pos rfl]⟩
    have hruled := (hg.lookup hb i).ruled hview
    have hedition : some e = some b.edition := by
      rw [← (RuleBook.inForce?_bind hb he).1, ← hkey, hruled.rule]
    exact Or.inr ⟨e, h, b, he, hfound, hkey, hheld.trans hview,
      (Option.some.inj hedition).symm, hruled.own⟩

theorem lookup_eq_none_iff (g : Registry) (hb : book.Consistent) (i : Identity) :
    (g.lookup book i.candidates).1 = none ↔
      ∀ rule ∈ book.degrades.rules, ¬ Applies i.candidates rule := by
  rw [← RuleTable.firstEnabled?_eq_none_iff hb.degrades]
  rcases g.lookup_cases book i.candidates with ⟨hnone, hfound⟩ | ⟨e, h, he, hfound, -⟩
  · exact iff_of_true hfound hnone
  · simp [hfound, he]

/-- Whatever registry a breaker is looked up in, it is found where the most specific rule is bound
to. -/
theorem bindsTo_lookup (g : Registry) (hb : book.Consistent) (i : Identity) {rule : DegradeRule}
    (hmost : IsMostSpecific book.degrades.rules i.candidates rule) :
    ∃ h, (g.lookup book i.candidates).1 = some h ∧ i.BindsTo rule.resource h.key := by
  obtain ⟨e, he, rfl⟩ := Option.map_eq_some_iff.mp
    ((RuleTable.map_firstEnabled?_eq_some_iff hb.degrades i.descending_candidates).mpr hmost)
  rcases g.lookup_cases book i.candidates with ⟨hnone, -⟩ | ⟨e', h, he', hfound, hkey, -⟩
  · rw [he] at hnone
    cases hnone
  · rw [he] at he'
    cases he'
    exact ⟨h, hfound, hkey ▸ i.bindsTo_bind hmost.applies.2⟩

theorem Follows.lookup_eq_some_iff (hg : g.Follows book) (hb : book.Consistent) (i : Identity)
    {rule : DegradeRule} :
    (∃ h b, (g.lookup book i.candidates).1 = some h ∧
        (g.lookup book i.candidates).2.held? h = some b ∧ b.rule = rule) ↔
      IsMostSpecific book.degrades.rules i.candidates rule := by
  rw [← RuleTable.map_firstEnabled?_eq_some_iff hb.degrades i.descending_candidates,
    Option.map_eq_some_iff]
  rcases hg.lookup_cases hb i with ⟨hnone, hfound⟩ | ⟨e, h, b, he, hfound, -, hheld, rfl, -⟩
  · simp [hnone, hfound]
  · simp [he, hfound, hheld, Breaker.rule]

theorem Follows.bindsTo_of_lookup (hg : g.Follows book) (hb : book.Consistent) {i : Identity}
    {h : Handle Resource} {b : Breaker} (hfound : (g.lookup book i.candidates).1 = some h)
    (hheld : (g.lookup book i.candidates).2.held? h = some b) :
    b.resource = h.key ∧ i.BindsTo b.rule.resource b.resource := by
  have hmost := (hg.lookup_eq_some_iff hb i).mp ⟨h, b, hfound, hheld, rfl⟩
  rcases hg.lookup_cases hb i with ⟨-, hnone⟩ | ⟨e, h', b', -, hfound', hkey, hheld', rfl, hown⟩
  · rw [hnone] at hfound
    cases hfound
  · rw [hfound'] at hfound
    cases hfound
    rw [hheld'] at hheld
    cases hheld
    refine ⟨hown, ?_⟩
    rw [hown, hkey]
    exact i.bindsTo_bind hmost.applies.2

end Registry

/-! ## Every request of every run -/

theorem Limiter.resolve_eq_some_iff {book : RuleBook} (hb : book.Consistent) (i : Identity)
    {rule : LimitRule} :
    resolve book i.candidates = some rule ↔ IsMostSpecific book.limits.rules i.candidates rule :=
  RuleTable.map_firstEnabled?_eq_some_iff hb.limits i.descending_candidates

theorem Limiter.resolve_eq_none_iff {book : RuleBook} (hb : book.Consistent) (i : Identity) :
    resolve book i.candidates = none ↔ ∀ rule ∈ book.limits.rules, ¬ Applies i.candidates rule := by
  rw [resolve, Option.map_eq_none_iff, RuleTable.firstEnabled?_eq_none_iff hb.limits]

namespace GateRun

/-- **Of the enabled rules that cover a request, the most specific one decides it**, in every run.
The candidates of a request descend strictly to the global resource. The limiter holds the request
against a rule exactly if that is the enabled limit rule for the greatest candidate, and against
none exactly if there is no enabled limit rule for a candidate. The breaker that is looked up is
found in the same way among the degrade rules, whatever registry it is looked up in, and in the
gate's own it runs on the very rule. Either is bound to the resource of its rule, but for the service
default to the request's own service. -/
theorem most_specific_rule_decides (changes : List RuleChange) (slotMs retained : Nat)
    (clock : Clock) (events : List GateEvent) (i : Identity) :
    let gate := ((start (RuleBook.ofChanges changes) slotMs retained clock).after events).gate
    let limits := gate.book.limits.rules
    let degrades := gate.book.degrades.rules
    let found := gate.breakers.lookup gate.book i.candidates
    (i.candidates.Pairwise (fun r r' => Resource.order r' r = .lt) ∧ i.candidates.Nodup ∧
      i.candidates.getLast? = some .global) ∧
    ((∀ rule, Limiter.resolve gate.book i.candidates = some rule ↔
        IsMostSpecific limits i.candidates rule) ∧
      (Limiter.resolve gate.book i.candidates = none ↔
        ∀ rule ∈ limits, ¬ Applies i.candidates rule) ∧
      ∀ rule stats now, Limiter.resolve gate.book i.candidates = some rule →
        i.BindsTo rule.resource (Limiter.permit gate.book stats i.candidates now).1.bound) ∧
    (∀ breakers : Registry,
      ((breakers.lookup gate.book i.candidates).1 = none ↔
        ∀ rule ∈ degrades, ¬ Applies i.candidates rule) ∧
      ∀ rule, IsMostSpecific degrades i.candidates rule →
        ∃ h, (breakers.lookup gate.book i.candidates).1 = some h ∧
          i.BindsTo rule.resource h.key) ∧
    (∀ rule, (∃ h b, found.1 = some h ∧ found.2.held? h = some b ∧ b.rule = rule) ↔
      IsMostSpecific degrades i.candidates rule) ∧
    ∀ h b, found.1 = some h → found.2.held? h = some b →
      b.resource = h.key ∧ i.BindsTo b.rule.resource b.resource := by
  intro gate limits degrades found
  -- the rules of the gate are consistent, and its breakers run on them
  have hgate : gate.Ordered :=
    after_of_step (I := fun run => run.gate.Ordered) (fun _ event h => ordered_step h event) events
      (.new (RuleBook.consistent_ofChanges changes) _ clock)
  have hbook := hgate.book
  have hdesc := i.descending_candidates
  refine ⟨⟨hdesc, hdesc.nodup, i.getLast?_candidates⟩,
    ⟨fun rule => Limiter.resolve_eq_some_iff hbook i, Limiter.resolve_eq_none_iff hbook i,
      fun rule stats now hrule => ?_⟩,
    fun breakers =>
      ⟨breakers.lookup_eq_none_iff hbook i, fun rule => breakers.bindsTo_lookup hbook i⟩,
    fun rule => hgate.breakers.lookup_eq_some_iff hbook i,
    fun h b => hgate.breakers.bindsTo_of_lookup hbook⟩
  rw [Limiter.bound_permit hrule]
  exact i.bindsTo_bind ((Limiter.resolve_eq_some_iff hbook i).mp hrule).applies.2

/-- A disabled rule for the path falls through to the rule of the service default. -/
theorem most_specific_rule_decides_default :
    let path : LimitRule := { resource := .api none "shop" "/buy", qps := some 1, enabled := false }
    let default : LimitRule := { resource := .serviceDefault, qps := some 2 }
    let everything : LimitRule := { resource := .global, qps := some 3 }
    let changes := [path, default, everything].map fun rule => RuleChange.rateLimit (.upsert rule)
    let request : Identity := { service := " shop ", path := some "/buy" }
    let gate := ((start (RuleBook.ofChanges changes) 1000 10 { now := 0 }).after []).gate
    IsMostSpecific gate.book.limits.rules request.candidates default ∧
      (Limiter.permit gate.book gate.stats request.candidates 0).1.bound = .service "shop" := by
  intro path default everything changes request gate
  have hfound : Limiter.resolve gate.book request.candidates = some default := by decide
  -- spelled out, the run is compared by what is written and not by what it comes to
  simp only [gate] at hfound ⊢
  obtain ⟨-, ⟨hresolve, -, hbinds⟩, -⟩ :=
    most_specific_rule_decides changes 1000 10 { now := 0 } [] request
  have hname : Text.trim request.service = "shop" := by decide
  refine ⟨(hresolve default).mp hfound, ?_⟩
  rw [(hbinds default _ 0 hfound).eq_service rfl, hname]

end GateRun
end Floodgate
