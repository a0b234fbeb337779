import Floodgate.Proofs.Resource.Order
import Floodgate.Proofs.Rule.Documents
import Mathlib.Data.List.TakeWhile

/-!
# Rules meet requests

There are three ways to a resource: a document gives its key, or its type and its names; a request
gives names alone. They trim names, take blank ones for missing and treat reserved ones each in
their own way, and a rule for a resource that no request has among its candidates would be dead.

It never is. What a document of service or api type makes of its names is a candidate of every
request that gives these names, in whatever spelling (`Target.mem_candidates`). And a resource that
has a key is found by its key as well as by its names (`Target.resolve_of_names`).
-/

set_option autoImplicit false

namespace Floodgate

/-! ## What a document names, and what it puts in force -/

/-- How a document names its resource, if it has the form of a rule document. -/
def RawRule.target? (raw : RawRule) : Option Target :=
  match raw.kind with
  | .rateLimit => (LimitDocument.ofJson? raw.document).map LimitDocument.target
  | .degrade => (DegradeDocument.ofJson? raw.document).map DegradeDocument.target

/-- The resource of the rule that a change puts in force, if it puts one in force. -/
def RuleChange.resource? : RuleChange → Option Resource
  | .rateLimit (.upsert rule) => some rule.resource
  | .degrade (.upsert rule) => some rule.resource
  | .rateLimit (.delete ..) | .degrade (.delete ..) => none

/-- The rule that a document puts in force is for the resource its target resolves to. The two kinds
of documents have targets of their own, so both have to be looked at. -/
theorem RawRule.resolve_of_parse {raw : RawRule} {t : Target} {c : RuleChange} {r : Resource}
    (ht : raw.target? = some t) (hc : raw.parse = .ok c) (hr : c.resource? = some r) :
    t.resolve = .ok r := by
  cases c with
  | rateLimit u =>
    cases u with
    | delete id resource => cases hr
    | upsert rule =>
      obtain ⟨hkind, d, hd, hu⟩ := parse_rateLimit_iff.mp hc
      simp only [target?, hkind, hd, Option.map_some, Option.some.injEq] at ht
      cases hr
      exact ht ▸ (LimitDocument.toUpdate_eq_upsert hu).resource
  | degrade u =>
    cases u with
    | delete id resource => cases hr
    | upsert rule =>
      obtain ⟨hkind, d, hd, hu⟩ := parse_degrade_iff.mp hc
      simp only [target?, hkind, hd, Option.map_some, Option.some.injEq] at ht
      cases hr
      exact ht ▸ (DegradeDocument.toUpdate_eq_upsert hu).resource

/-! ## Names without a key -/

namespace Target

variable {t : Target} {r : Resource}

/-- No key is given, or a blank one. A blank key is passed over, and the type and the names are
used. -/
def IsKeyless (t : Target) : Prop := ∀ k ∈ t.key, Text.isAllBlank k = true

/-- A document and a request give the same names, letter for letter. -/
structure NamesLike (t : Target) (i : Identity) : Prop where
  keyless : t.IsKeyless
  app : t.app = i.app
  service : t.service = some i.service
  path : t.path = i.path

/-- A document gives the type of a resource and its names. -/
structure Names (t : Target) (r : Resource) : Prop where
  keyless : t.IsKeyless
  scope : t.scope = some r.scope
  app : t.app = r.app?
  service : t.service = r.serviceName?
  path : t.path = r.path?

theorem IsKeyless.filter_eq_none (h : t.IsKeyless) :
    (t.key.filter fun k => !Text.isAllBlank k) = none := by
  rw [Option.filter_eq_none_iff]
  intro k hk
  rw [h k hk]
  exact Bool.false_ne_true

/-- A service is named by its name alone: what the document says of an application or a path is
ignored. -/
theorem IsKeyless.resolve_service (h : t.IsKeyless) (hscope : t.scope = some .service) :
    t.resolve = withScope .service .needsService (Resource.ofParts? none t.service none) := by
  rw [resolve, h.filter_eq_none, hscope]

theorem IsKeyless.resolve_api (h : t.IsKeyless) (hscope : t.scope = some .api) :
    t.resolve =
      withScope .api .needsServiceAndPath (Resource.ofParts? t.app t.service t.path) := by
  rw [resolve, h.filter_eq_none, hscope]

/-- **What a document makes of its names is a candidate** of every request that gives the same
names. Both are trimmed in the same way, so blank space around a name makes no difference. -/
theorem mem_candidates {i : Identity} (hnames : t.NamesLike i)
    (hscope : t.scope = some .service ∨ t.scope = some .api) (h : t.resolve = .ok r) :
    r ∈ i.candidates := by
  rcases hscope with hscope | hscope
  · rw [hnames.keyless.resolve_service hscope, hnames.service] at h
    obtain ⟨hparts, hr⟩ := withScope_eq_ok h
    rcases Resource.ofParts?_eq_some_cases hparts with rfl | rfl | ⟨s, hs, hfree, rfl | ⟨p, -, rfl⟩⟩
    · cases hr
    · cases hr
    · rw [Identity.candidates_of_service hs hfree]
      exact List.mem_append_right _ List.mem_cons_self
    · cases hr
  · rw [hnames.keyless.resolve_api hscope, hnames.app, hnames.service, hnames.path] at h
    obtain ⟨hparts, hr⟩ := withScope_eq_ok h
    rcases Resource.ofParts?_eq_some_cases hparts with rfl | rfl | ⟨s, hs, hfree, rfl | ⟨p, hp, rfl⟩⟩
    · cases hr
    · cases hr
    · cases hr
    · rw [Identity.candidates_of_service hs hfree, hp]
      refine List.mem_append_left _ ?_
      -- the path as called by the application comes first, if there is one, and else by itself
      cases i.app.bind Text.nonBlank? with
      | none => exact List.mem_append_right _ List.mem_cons_self
      | some a => exact List.mem_append_left _ List.mem_cons_self

end Target

/-! ## Keys -/

theorem Text.isBlank_of_isAllBlank {s : String} (h : isAllBlank s = true) :
    ∀ c ∈ s.toList, isBlank c = true := by
  have htrim : trimChars s.toList = [] := by
    have hnone : nonBlank? s = none := Option.isNone_iff_eq_none.mp h
    have hempty : trim s = "" := by
      by_contra hne
      rw [nonBlank?, if_neg hne] at hnone
      cases hnone
    simpa [trim] using congrArg String.toList hempty
  rw [trimChars, dropWhileEnd, List.reverse_eq_nil_iff, List.dropWhile_eq_nil_iff] at htrim
  -- what is left when blank space is dropped at the front is blank as well, so nothing is left
  refine List.dropWhile_eq_nil_iff.mp ?_
  rw [← List.dropWhile_idempotent isBlank]
  exact List.dropWhile_eq_nil_iff.mpr fun c hc => htrim c (List.mem_reverse.mpr hc)

/-- No key is blank, since every key has its separators. -/
theorem Resource.isAllBlank_key (r : Resource) : Text.isAllBlank r.key = false := by
  rw [Bool.eq_false_iff]
  intro hblank
  have hseparator := Text.isBlank_of_isAllBlank hblank separator
    (by rw [toList_key]; simp [KeyFields.text])
  revert hseparator
  decide

namespace Target

variable {t : Target} {r : Resource}

/-- The key of a resource that can come about is read back as that resource, whatever else the
document says. -/
theorem resolve_of_key (hr : r.IsCanonical) (ht : t.key = some r.key) : t.resolve = .ok r := by
  have hkey : (t.key.filter fun k => !Text.isAllBlank k) = some r.key := by
    rw [ht, Option.filter_eq_some_iff, r.isAllBlank_key]
    exact ⟨rfl, rfl⟩
  rw [resolve, hkey]
  dsimp only
  rw [hr.ofKey?_key]

/-- A resource that can come about is found again by its type and its names. -/
theorem resolve_of_names (hr : r.IsCanonical) (hscope : r.scope = .service ∨ r.scope = .api)
    (ht : t.Names r) : t.resolve = .ok r := by
  cases r with
  | global | serviceDefault => rcases hscope with h | h <;> cases h
  | service s =>
    have hparts : Resource.ofParts? none (some s) none = some (.service s) := by
      rw [Resource.ofParts?_of_service hr.nonBlank? hr.isReserved_eq]
      rfl
    rw [ht.keyless.resolve_service ht.scope, ht.service, Resource.serviceName?, hparts]
    rfl
  | api app s p =>
    obtain ⟨happ, hs, hp⟩ := hr
    have hparts : Resource.ofParts? app (some s) (some p) = some (.api app s p) := by
      have hbind : app.bind Text.nonBlank? = app := by
        cases app with
        | none => rfl
        | some a => exact (happ a rfl).nonBlank?
      rw [Resource.ofParts?_of_service hs.nonBlank? hs.isReserved_eq, Option.bind_some,
        hp.nonBlank?, hbind]
    rw [ht.keyless.resolve_api ht.scope, ht.app, ht.service, ht.path, Resource.app?,
      Resource.serviceName?, Resource.path?, hparts]
    rfl

end Target

/-! ## Documents that name a resource -/

/-- The number of a scope in documents of a kind. Degrade rules have no global scope, and their
numbers start one lower. -/
def RuleKind.scopeNumber? : RuleKind → Scope → Option Nat
  | .rateLimit, .global => some 1
  | .rateLimit, .serviceDefault => some 2
  | .rateLimit, .service => some 3
  | .rateLimit, .api => some 4
  | .degrade, .global => none
  | .degrade, .serviceDefault => some 1
  | .degrade, .service => some 2
  | .degrade, .api => some 3

/-- A text as a JSON value, `null` if there is none. -/
def Json.ofText? : Option String → Json
  | some s => .str s
  | none => .null

/-- A document that says no more than how it names its resource. It puts no rule in force by itself,
for a target is read before anything else is asked of the document. -/
def Target.document (t : Target) (kind : RuleKind) : RawRule where
  kind := kind
  document := .obj [("app", .ofText? t.app), ("path", .ofText? t.path),
    ("resourceId", .ofText? t.key), ("service", .ofText? t.service),
    ("type", match t.scope.bind kind.scopeNumber? with
      | some n => .int n
      | none => .null)]

theorem Json.Record.optional_ofText? {r : Record} {name : String} {text : Option String}
    (h : r.get? name = some (.ofText? text)) : r.optional name string? = some text := by
  cases text <;> simp [optional, h, ofText?, string?]

/-- Every way to name a resource can be written down in a document, but for the global scope, which
degrade rules have no number for. -/
theorem Target.target?_document (t : Target) (kind : RuleKind) (ht : t.scope ≠ some .global) :
    (t.document kind).target? = some t := by
  obtain ⟨key, scope, app, service, path⟩ := t
  cases kind with
  | rateLimit =>
    let t : Target := { key, scope, app, service, path }
    let d : LimitDocument :=
      { id := none, key, type := scope.bind RuleKind.rateLimit.scopeNumber?, service, app, path,
        qps := none, concurrency := none, enabled := true, deleted := false, responseType := none,
        responseContent := none, responseStatus := none }
    -- the names are read as they were given, and all other fields are missing
    have hread : LimitDocument.ofJson? (t.document .rateLimit).document = some d := by
      refine LimitDocument.ofJson?_eq_some_iff.mpr ⟨_, rfl, ?_⟩
      exact {
        id := rfl
        key := Json.Record.optional_ofText? rfl
        type := by rcases scope with - | (- | - | - | -) <;> rfl
        service := Json.Record.optional_ofText? rfl
        app := Json.Record.optional_ofText? rfl
        path := Json.Record.optional_ofText? rfl
        qps := rfl
        concurrency := rfl
        enabled := rfl
        deleted := rfl
        responseType := rfl
        responseContent := rfl
        responseStatus := rfl }
    have htarget : d.target = t := by rcases scope with - | (- | - | - | -) <;> rfl
    rw [RawRule.target?]
    exact (congrArg (Option.map LimitDocument.target) hread).trans (congrArg some htarget)
  | degrade =>
    let t : Target := { key, scope, app, service, path }
    let d : DegradeDocument :=
      { id := none, key, type := scope.bind RuleKind.degrade.scopeNumber?, service, app, path,
        strategy := none, ratioThreshold := none, exceptionCount := none, minRequestCount := none,
        timeWindow := none, statInterval := none, recoveryStrategy := none,
        recoveryTimeWindow := none, responseContentType := none, responseContent := none,
        responseStatus := none, enabled := true, deleted := false }
    have hread : DegradeDocument.ofJson? (t.document .degrade).document = some d := by
      refine DegradeDocument.ofJson?_eq_some_iff.mpr ⟨_, rfl, ?_⟩
      exact {
        id := rfl
        key := Json.Record.optional_ofText? rfl
        type := by rcases scope with - | (- | - | - | -) <;> rfl
        service := Json.Record.optional_ofText? rfl
        app := Json.Record.optional_ofText? rfl
        path := Json.Record.optional_ofText? rfl
        strategy := rfl
        ratioThreshold := rfl
        exceptionCount := rfl
        minRequestCount := rfl
        timeWindow := rfl
        statInterval := rfl
        recoveryStrategy := rfl
        recoveryTimeWindow := rfl
        responseContentType := rfl
        responseContent := rfl
        responseStatus := rfl
        enabled := rfl
        deleted := rfl }
    have htarget : d.target = t := by
      rcases scope with - | (- | - | - | -)
      · rfl
      · exact absurd rfl ht
      all_goals rfl
    rw [RawRule.target?]
    exact (congrArg (Option.map DegradeDocument.target) hread).trans (congrArg some htarget)

/-! ## The main statement -/

/-- **Rules meet requests.** A document of either kind that names a service or a path by its type and
its names puts a rule in force for a candidate of every request that gives these names. A service or
a path that some key names is named by its own key and by its type and its names alike: there are
documents of either kind that do the one and the other, they all resolve to it, and put no rule in
force for another resource. -/
theorem rules_meet_requests :
    (∀ (raw : RawRule) (t : Target) (i : Identity) (c : RuleChange) (r : Resource),
      raw.target? = some t → (t.scope = some .service ∨ t.scope = some .api) → t.NamesLike i →
      raw.parse = .ok c → c.resource? = some r → r ∈ i.candidates) ∧
    ∀ (text : String) (r : Resource), Resource.ofKey? text = some r →
      (r.scope = .service ∨ r.scope = .api) →
      (∀ (raw : RawRule) (t : Target), raw.target? = some t → (t.key = some r.key ∨ t.Names r) →
        t.resolve = .ok r ∧ ∀ c r', raw.parse = .ok c → c.resource? = some r' → r' = r) ∧
      ∀ kind : RuleKind,
        (∃ (raw : RawRule) (t : Target),
          raw.kind = kind ∧ raw.target? = some t ∧ t.key = some r.key) ∧
        ∃ (raw : RawRule) (t : Target),
          raw.kind = kind ∧ raw.target? = some t ∧ t.Names r := by
  constructor
  · intro raw t i c r ht hscope hnames hc hr
    exact Target.mem_candidates hnames hscope (RawRule.resolve_of_parse ht hc hr)
  · intro text r htext hscope
    have hcanonical := Resource.isCanonical_of_ofKey? htext
    -- documents that name `r` resolve to it; then there is one that names it by its key, and one by
    -- type and names
    refine ⟨fun raw t ht hnamed => ?_, fun kind => ⟨?_, ?_⟩⟩
    · have hresolve : t.resolve = .ok r := by
        rcases hnamed with hkey | hnames
        · exact Target.resolve_of_key hcanonical hkey
        · exact Target.resolve_of_names hcanonical hscope hnames
      refine ⟨hresolve, fun c r' hc hr' => ?_⟩
      exact Except.ok.inj ((RawRule.resolve_of_parse ht hc hr').symm.trans hresolve)
    · let t : Target :=
        { key := some r.key, scope := none, app := none, service := none, path := none }
      exact ⟨t.document kind, t, rfl, t.target?_document kind nofun, rfl⟩
    · let t : Target :=
        { key := none, scope := some r.scope, app := r.app?, service := r.serviceName?,
          path := r.path? }
      have ht : t.scope ≠ some .global := by
        rcases hscope with h | h <;> simp [t, h]
      exact ⟨t.document kind, t, rfl, t.target?_document kind ht, nofun, rfl, rfl, rfl, rfl⟩

/-- A limit rule for a path and a degrade rule for a service, with blank space around the names, and
the service by its key. -/
theorem rules_meet_requests_padded :
    let limit : RawRule :=
      { kind := .rateLimit
        document := .obj [("app", .str " shop "), ("path", .str "/a "), ("qps", .int 1),
          ("service", .str "\torders"), ("type", .int 4)] }
    let degrade : RawRule :=
      { kind := .degrade
        document := .obj [("exceptionCount", .int 1), ("resource", .str "\torders"),
          ("statInterval", .int 1), ("strategy", .int 2), ("timeWindow", .int 1),
          ("type", .int 2)] }
    let keyed : RawRule :=
      { kind := .degrade
        document := .obj [("isDeleted", .bool true), ("resourceId", .str "^^^orders^")] }
    (∃ c, limit.parse = .ok c ∧ c.resource? = some (.api (some "shop") "orders" "/a") ∧
      .api (some "shop") "orders" "/a" ∈
        Identity.candidates { app := some " shop ", service := "\torders", path := some "/a " }) ∧
    (∃ c, degrade.parse = .ok c ∧ c.resource? = some (.service "orders") ∧
      .service "orders" ∈ Identity.candidates { service := "\torders" }) ∧
    ∃ t, keyed.target? = some t ∧ t.resolve = .ok (.service "orders") := by
  intro limit degrade keyed
  obtain ⟨hmeet, hnamed⟩ := rules_meet_requests
  obtain ⟨hresolve, -⟩ := hnamed "^^^orders^" (.service "orders") (by decide) (.inl rfl)
  refine ⟨?_, ?_, _, rfl, (hresolve keyed _ rfl (.inl rfl)).1⟩
  · obtain ⟨c, hc, hr⟩ : ∃ c, limit.parse = .ok c ∧
        c.resource? = some (.api (some "shop") "orders" "/a") := ⟨_, rfl, by decide⟩
    exact ⟨c, hc, hr, hmeet limit _ _ c _ rfl (.inr rfl) ⟨nofun, rfl, rfl, rfl⟩ hc hr⟩
  · obtain ⟨c, hc, hr⟩ : ∃ c, degrade.parse = .ok c ∧ c.resource? = some (.service "orders") :=
      ⟨_, rfl, by decide⟩
    exact ⟨c, hc, hr, hmeet degrade _ _ c _ rfl (.inl rfl) ⟨nofun, rfl, rfl, rfl⟩ hc hr⟩

end Floodgate
