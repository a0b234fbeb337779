import Floodgate.Proofs.Resource.Canonical
import Floodgate.Proofs.Rule.Members

/-!
# Rules from documents are sane

Neither the limiter nor a breaker checks the rules that it is given. A breaker takes it for granted
that it looks back over some time, that it stays open for a while, and that its resource is not all
traffic. `LimitRule.IsSane` and `DegradeRule.IsSane` say what is relied on, and every rule that
documents of whatever shape put in force has it: the fields of a document are bounded by their
readers (`Json.signed?_eq_some_iff`, `Json.below?_eq_some_iff`), names come out of
`Resource.ofParts?` alone, and the rest is refused where a document is turned into an update.
-/

set_option autoImplicit false

universe u

namespace Floodgate

/-! ## What the parts of a rule must be like -/

/-- Names are trimmed and not empty, and a service does not have a reserved name. A path or an
application may hold carets here, as the names in a document may. -/
def Resource.IsNamed : Resource → Prop
  | .global | .serviceDefault => True
  | .service s => Text.IsTrimmed s ∧ isReserved s = false
  | .api app s p =>
    (∀ a ∈ app, Text.IsTrimmed a) ∧ (Text.IsTrimmed s ∧ isReserved s = false) ∧ Text.IsTrimmed p

/-- No field is set to something blank. -/
structure ResponseOverride.IsFilled (o : ResponseOverride) : Prop where
  contentType : ∀ t ∈ o.contentType, Text.trim t ≠ ""
  body : ∀ b ∈ o.body, b ≠ ""

/-- A breaker does not trip without an error, and trips if there is nothing but errors. -/
def BreakStrategy.IsSane : BreakStrategy → Prop
  | .totalErrors n => 1 ≤ n
  | .errorRatio x => 0.0 < x ∧ x ≤ 1.0

structure LimitRule.IsSane (rule : LimitRule) : Prop where
  resource : rule.resource.IsNamed
  qps : ∀ n ∈ rule.qps, 1 ≤ n ∧ n ≤ 2 ^ 63 - 1
  concurrency : ∀ n ∈ rule.concurrency, 1 ≤ n ∧ n ≤ 2 ^ 63 - 1
  response : rule.response.IsFilled

structure DegradeRule.IsSane (rule : DegradeRule) : Prop where
  resource : rule.resource.IsNamed
  notGlobal : rule.resource ≠ .global
  strategy : rule.strategy.IsSane
  monitorMs : 1000 ≤ rule.monitorMs
  breakMs : 1000 ≤ rule.breakMs
  resume : ∀ windowMs, rule.resume = .gradual windowMs → 1000 ≤ windowMs
  response : rule.response.IsFilled

/-- The time that a field of a record gives in seconds, in milliseconds. -/
def Json.Record.GivesMillis (r : Json.Record) (name : String) (ms : Nat) : Prop :=
  ∃ seconds : Nat, r.get? name = some (.int seconds) ∧ ms = min (1000 * seconds) (2 ^ 64 - 1)

/-- The times of a rule are those that the fields of a document give. -/
structure DegradeRule.IsTimedBy (rule : DegradeRule) (r : Json.Record) : Prop where
  monitorMs : r.GivesMillis "statInterval" rule.monitorMs
  breakMs : r.GivesMillis "timeWindow" rule.breakMs
  resume : ∀ windowMs, rule.resume = .gradual windowMs →
    r.GivesMillis "recoveryTimeWindow" windowMs

/-! ## What readers of fields let through -/

theorem Word.isSigned_iff {i : Int} : isSigned i = true ↔ -2 ^ 63 ≤ i ∧ i < 2 ^ 63 := by
  rw [isSigned, Bool.and_eq_true, decide_eq_true_eq, decide_eq_true_eq]
  rfl

namespace Json

variable {j : Json}

/-- A signed field is a whole number within the bounds of a signed word, and nothing else is read as
one. -/
theorem signed?_eq_some_iff {i : Int} :
    j.signed? = some i ↔ j = .int i ∧ Word.isSigned i = true := by
  cases j with
  | int k =>
    by_cases hk : Word.isSigned k = true
    · simp only [signed?, if_pos hk, Option.some.injEq, int.injEq]
      exact ⟨fun e => ⟨e, e ▸ hk⟩, And.left⟩
    · simp only [signed?, if_neg hk, int.injEq, reduceCtorEq, false_iff]
      rintro ⟨rfl, h⟩
      exact hk h
  | _ => simp [signed?]

theorem below?_eq_some_iff {bound n : Nat} :
    j.below? bound = some n ↔ j = .int n ∧ n < bound := by
  cases j with
  | int k =>
    by_cases hk : 0 ≤ k ∧ k < bound
    · simp only [below?, if_pos hk, Option.some.injEq, int.injEq]
      omega
    · simp only [below?, if_neg hk, int.injEq, reduceCtorEq, false_iff]
      rintro ⟨rfl, h⟩
      exact hk ⟨Int.natCast_nonneg n, Int.ofNat_lt.mpr h⟩
  | _ => simp [below?]

/-- A ceiling that a signed field gives is a positive signed word. Zero and what is below zero is no
ceiling at all. -/
theorem Record.ceiling?_bounds {r : Record} {name : String} {given : Option Int}
    (h : r.optional name signed? = some given) : ∀ n ∈ ceiling? given, 1 ≤ n ∧ n ≤ 2 ^ 63 - 1 := by
  intro n hn
  cases given with
  | none => cases hn
  | some i =>
    obtain ⟨j, -, hj⟩ := get?_of_optional h
    obtain ⟨-, hsigned⟩ := signed?_eq_some_iff.mp hj
    have hi := (Word.isSigned_iff.mp hsigned).2
    simp only [ceiling?, Option.mem_def] at hn
    split at hn
    · cases hn
      omega
    · cases hn

end Json

/-- Names that are given one by one are trimmed on the way, and blank ones are refused. -/
theorem Resource.isNamed_of_ofParts? {app name path : Option String} {r : Resource}
    (h : ofParts? app name path = some r) : r.IsNamed := by
  have htrimmed : ∀ {text : Option String} {t : String},
      text.bind Text.nonBlank? = some t → Text.IsTrimmed t := fun ht =>
    let ⟨_, _, hb⟩ := Option.bind_eq_some_iff.mp ht
    Text.isTrimmed_of_nonBlank? hb
  rcases ofParts?_eq_some_cases h with rfl | rfl | ⟨s, hs, hfree, rfl | ⟨p, hp, rfl⟩⟩
  · trivial
  · trivial
  · exact ⟨htrimmed hs, hfree⟩
  · exact ⟨fun a ha => htrimmed ha, ⟨htrimmed hs, hfree⟩, htrimmed hp⟩

theorem Resource.IsCanonical.isNamed {r : Resource} (h : r.IsCanonical) : r.IsNamed := by
  cases r with
  | global | serviceDefault => trivial
  | service s => exact ⟨h.toIsTrimmed, h.isReserved_eq⟩
  | api app s p =>
    obtain ⟨happ, hs, hp⟩ := h
    exact ⟨fun a ha => (happ a ha).toIsTrimmed, ⟨hs.toIsTrimmed, hs.isReserved_eq⟩, hp⟩

/-- Whichever way a document names its resource, the names are in order. The key, if there is one,
is cut into names first. -/
theorem Target.isNamed_of_resolve {t : Target} {r : Resource} (h : t.resolve = .ok r) :
    r.IsNamed := by
  unfold resolve at h
  split at h
  · split at h
    · rename_i hkey
      cases h
      exact (Resource.isCanonical_of_ofKey? hkey).isNamed
    · cases h
  · split at h
    · cases h
    · cases h
      trivial
    · cases h
      trivial
    · exact Resource.isNamed_of_ofParts? (withScope_eq_ok h).1
    · exact Resource.isNamed_of_ofParts? (withScope_eq_ok h).1

theorem ResponseOverride.isFilled_ofGiven (status : Option Nat) (contentType body : Option String) :
    (ofGiven status contentType body).IsFilled where
  contentType t ht := by
    obtain ⟨-, hblank⟩ := Option.filter_eq_some_iff.mp ht
    intro htrim
    simp [Text.isAllBlank, Text.nonBlank?, htrim] at hblank
  body b hb := by
    obtain ⟨-, hne⟩ := Option.filter_eq_some_iff.mp hb
    simpa using hne

/-! ## Documents describe sane rules -/

/-- A limit rule from a document has ceilings that are words and names that are in order. -/
theorem LimitDocument.isSane {r : Json.Record} {d : LimitDocument} {rule : LimitRule}
    (hr : ReadFrom r d) (h : Describes d rule) : rule.IsSane where
  resource := Target.isNamed_of_resolve h.resource
  qps := h.qps ▸ Json.Record.ceiling?_bounds hr.qps
  concurrency := h.concurrency ▸ Json.Record.ceiling?_bounds hr.concurrency
  response := h.response ▸ ResponseOverride.isFilled_ofGiven ..

/-- A time in seconds is turned into milliseconds and cut off at the greatest word. It must not be
zero. -/
theorem positiveMillis_eq_ok {seconds : Option Nat} {otherwise : Malformed} {ms : Nat}
    (h : positiveMillis seconds otherwise = .ok ms) :
    ∃ s, seconds = some s ∧ 0 < s ∧ ms = min (1000 * s) (2 ^ 64 - 1) := by
  unfold positiveMillis at h
  split at h
  · rename_i s
    split at h
    · rename_i hs
      cases h
      refine ⟨s, rfl, hs, ?_⟩
      rw [millis, Word.mulSaturating, Nat.mul_comm]
      rfl
    · cases h
  · cases h

/-- A time in milliseconds is a second long at least, and comes from a field. -/
theorem Json.Record.givesMillis {r : Record} {name : String} {seconds : Option Nat}
    {otherwise : Malformed} {ms : Nat} (hread : r.optional name unsigned64? = some seconds)
    (h : positiveMillis seconds otherwise = .ok ms) : 1000 ≤ ms ∧ r.GivesMillis name ms := by
  obtain ⟨s, rfl, hpos, hms⟩ := positiveMillis_eq_ok h
  obtain ⟨j, hj, hs⟩ := get?_of_optional hread
  obtain ⟨rfl, -⟩ := below?_eq_some_iff.mp hs
  exact ⟨by omega, s, hj, hms⟩

namespace DegradeDocument

variable {r : Json.Record} {d : DegradeDocument} {rule : DegradeRule}

theorem isSane_of_breakStrategy {s : BreakStrategy} (h : d.breakStrategy = .ok s) : s.IsSane := by
  rcases breakStrategy_eq_ok_cases h with ⟨x, -, -, hrange, rfl⟩ | ⟨n, -, -, hpos, rfl⟩
  · exact hrange
  · exact hpos

/-- A gradual recovery has a time of its own, which is held to the same bounds. -/
theorem positiveMillis_of_gradual {windowMs : Nat}
    (h : d.resumeStrategy = .ok (.gradual windowMs)) :
    positiveMillis d.recoveryTimeWindow .missingRecoveryWindow = .ok windowMs := by
  unfold resumeStrategy at h
  split at h
  · cases h
  · cases h
  · cases hw : positiveMillis d.recoveryTimeWindow .missingRecoveryWindow with
    | error e =>
      rw [hw] at h
      cases h
    | ok ms =>
      rw [hw] at h
      cases h
      rfl
  · cases h
  · cases h

/-- No degrade rule is for all traffic, whichever way its document names the resource. -/
theorem ne_global_of_toUpdate (h : d.toUpdate = .ok (.upsert rule)) : rule.resource ≠ .global := by
  have hresource := (toUpdate_eq_upsert h).resource
  intro hglobal
  rw [toUpdate, if_neg (by rw [(toUpdate_eq_upsert h).kept]; exact Bool.false_ne_true), hresource,
    hglobal] at h
  cases h

/-- **A degrade rule from a document is sane**, and each of its times is that of a field. -/
theorem isSane (hr : ReadFrom r d) (h : d.toUpdate = .ok (.upsert rule)) :
    rule.IsSane ∧ rule.IsTimedBy r := by
  have hd := toUpdate_eq_upsert h
  have hmonitor := Json.Record.givesMillis hr.statInterval hd.monitorMs
  have hbreak := Json.Record.givesMillis hr.timeWindow hd.breakMs
  have hwindow : ∀ windowMs, rule.resume = .gradual windowMs →
      1000 ≤ windowMs ∧ r.GivesMillis "recoveryTimeWindow" windowMs := fun windowMs hw =>
    Json.Record.givesMillis hr.recoveryTimeWindow
      (positiveMillis_of_gradual (hd.resume.trans (congrArg _ hw)))
  exact ⟨
    { resource := Target.isNamed_of_resolve hd.resource
      notGlobal := ne_global_of_toUpdate h
      strategy := isSane_of_breakStrategy hd.strategy
      monitorMs := hmonitor.1
      breakMs := hbreak.1
      resume := fun windowMs hw => (hwindow windowMs hw).1
      response := hd.response ▸ ResponseOverride.isFilled_ofGiven .. },
    { monitorMs := hmonitor.2
      breakMs := hbreak.2
      resume := fun windowMs hw => (hwindow windowMs hw).2 }⟩

end DegradeDocument

/-! ## Rules in force are sane -/

theorem RawRule.isSane_of_describes {raw : RawRule} {rule : LimitRule} (h : raw.Describes rule) :
    rule.IsSane := by
  obtain ⟨-, d, hd, hu⟩ := parse_rateLimit_iff.mp h
  obtain ⟨r, -, hread⟩ := LimitDocument.ofJson?_eq_some_iff.mp hd
  exact LimitDocument.isSane hread (LimitDocument.toUpdate_eq_upsert hu)

namespace Loader

/-- A rule that is in force after documents was in force before them, or one of them describes it. -/
theorem mem_rules_cases {σ : Type u} (l : Loader σ) (raws : List RawRule) (s : σ)
    {book : RuleBook} (hb : book.Consistent) :
    let book' := (l.applyAll raws (book, s)).2.1
    (∀ rule ∈ book'.limits.rules, rule ∈ book.limits.rules ∨ ∃ raw ∈ raws, raw.Describes rule) ∧
      ∀ rule ∈ book'.degrades.rules,
        rule ∈ book.degrades.rules ∨ ∃ raw ∈ raws, raw.Describes rule := by
  intro book'
  have hsame := l.sameMembers_applyAll raws s hb
  constructor
  · intro rule hrule
    refine (RuleUpdate.mem_of_mem_onSetAll ((hsame.1 rule).mp hrule)).imp_right fun hx => ?_
    obtain ⟨raw, hraw, hu⟩ := List.mem_filterMap.mp hx
    exact ⟨raw, hraw, RawRule.update?_eq_some_iff.mp hu⟩
  · intro rule hrule
    refine (RuleUpdate.mem_of_mem_onSetAll ((hsame.2 rule).mp hrule)).imp_right fun hx => ?_
    obtain ⟨raw, hraw, hu⟩ := List.mem_filterMap.mp hx
    exact ⟨raw, hraw, RawRule.update?_eq_some_iff.mp hu⟩

/-- Documents keep the limit rules sane, whatever rules they find. -/
theorem isSane_applyAll {σ : Type u} (l : Loader σ) (raws : List RawRule) (s : σ)
    {book : RuleBook} (hb : book.Consistent) (hsane : ∀ rule ∈ book.limits.rules, rule.IsSane) :
    ∀ rule ∈ (l.applyAll raws (book, s)).2.1.limits.rules, rule.IsSane := fun rule hrule =>
  match (l.mem_rules_cases raws s hb).1 rule hrule with
  | .inl hbefore => hsane rule hbefore
  | .inr ⟨_, _, hraw⟩ => RawRule.isSane_of_describes hraw

/-- Where there was no rule, documents put only rules in force that they describe. Deletions put
none in force and need not be looked at. -/
theorem describes_of_mem_rules {σ : Type u} (l : Loader σ) (raws : List RawRule) (s : σ) :
    let book := (l.applyAll raws (.empty, s)).2.1
    (∀ rule ∈ book.limits.rules, ∃ raw ∈ raws, raw.Describes rule) ∧
      ∀ rule ∈ book.degrades.rules, ∃ raw ∈ raws, raw.Describes rule := by
  obtain ⟨hlimits, hdegrades⟩ := l.mem_rules_cases raws s RuleBook.consistent_empty
  exact ⟨fun rule hrule => (hlimits rule hrule).resolve_left nofun,
    fun rule hrule => (hdegrades rule hrule).resolve_left nofun⟩

/-- **Every rule in force is sane**, after any documents that are applied where there was no rule.
The times of a degrade rule are those that the fields of some document give in seconds. -/
theorem rules_are_sane {σ : Type u} (l : Loader σ) (raws : List RawRule) (s : σ) :
    let book := (l.applyAll raws (.empty, s)).2.1
    (∀ rule ∈ book.limits.rules, rule.IsSane) ∧
    ∀ rule ∈ book.degrades.rules, rule.IsSane ∧
      ∃ raw ∈ raws, raw.Describes rule ∧ ∃ r,
        Json.Record.ofJson? DegradeDocument.fields raw.document = some r ∧ rule.IsTimedBy r := by
  intro book
  obtain ⟨hlimits, hdegrades⟩ := l.describes_of_mem_rules raws s
  constructor
  · intro rule hrule
    obtain ⟨raw, -, hraw⟩ := hlimits rule hrule
    obtain ⟨-, d, hd, hu⟩ := RawRule.parse_rateLimit_iff.mp hraw
    obtain ⟨r, -, hread⟩ := LimitDocument.ofJson?_eq_some_iff.mp hd
    exact LimitDocument.isSane hread (LimitDocument.toUpdate_eq_upsert hu)
  · intro rule hrule
    obtain ⟨raw, hmem, hraw⟩ := hdegrades rule hrule
    obtain ⟨-, d, hd, hu⟩ := RawRule.parse_degrade_iff.mp hraw
    obtain ⟨r, hr, hread⟩ := DegradeDocument.ofJson?_eq_some_iff.mp hd
    obtain ⟨hsane, htimed⟩ := DegradeDocument.isSane hread hu
    exact ⟨hsane, raw, hmem, hraw, r, hr, htimed⟩

/-- A degrade document in the form of an array, whose recovery takes longer than can be said, and a
limit document that names its service among blanks and asks for no requests per second. -/
theorem rules_are_sane_array :
    let degrade : RawRule :=
      { kind := .degrade
        document := .arr [.int 1, .str " ^^ ^ orders ^ /a ", .null, .null, .null, .null, .int 2,
          .null, .int 1, .null, .int 1, .int 30, .int 2, .int 18446744073709551615, .str " ",
          .str ""] }
    let limit : RawRule :=
      { kind := .rateLimit
        document := .obj [("concurrents", .int 9223372036854775807), ("qps", .int 0),
          ("service", .str "\u00a0orders "), ("type", .int 3)] }
    let book := (({} : Loader Unit).applyAll [degrade, limit] (.empty, ())).2.1
    (∃ rule ∈ book.degrades.rules, rule.resource = .api none "orders" "/a" ∧
      rule.monitorMs = 30000 ∧ rule.resume = .gradual (2 ^ 64 - 1) ∧ rule.response = {} ∧
      rule.IsSane) ∧
    ∃ rule ∈ book.limits.rules, rule.resource = .service "orders" ∧ rule.qps = none ∧
      rule.IsSane := by
  intro degrade limit book
  obtain ⟨hlimits, hdegrades⟩ := ({} : Loader Unit).rules_are_sane [degrade, limit] ()
  have hlimit : ∃ rule ∈ book.limits.rules,
      rule.resource = .service "orders" ∧ rule.qps = none := by decide +kernel
  have hdegrade : ∃ rule ∈ book.degrades.rules, rule.resource = .api none "orders" "/a" ∧
      rule.monitorMs = 30000 ∧ rule.resume = .gradual (2 ^ 64 - 1) ∧ rule.response = {} := by
    decide +kernel
  obtain ⟨rule, hrule, hresource, hqps⟩ := hlimit
  obtain ⟨rule', hrule', hresource', hmonitor, hresume, hresponse⟩ := hdegrade
  exact ⟨⟨rule', hrule', hresource', hmonitor, hresume, hresponse, (hdegrades rule' hrule').1⟩,
    rule, hrule, hresource, hqps, hlimits rule hrule⟩

end Loader

end Floodgate
