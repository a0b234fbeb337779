import Floodgate.Proofs.Json.Members
import Floodgate.Proofs.Rule.Loader
import Floodgate.Proofs.Rule.PlainSet
import Floodgate.Source.File

/-!
# What a document says, and what it says when it is marked as deleted

Documents of the two kinds have fields of their own, but a rule file treats them alike. This file
says what it relies on, and that both kinds have it: a document that puts a rule in force has the id
of the rule in its member `id`; marked as deleted it asks for the rule of that id to be removed, and
names the resource of the rule as well; and same documents put same rules in force.

`Documented` says how changes and documents of a kind are told from those of the other, and
`LawfulDocumented` holds the facts.
-/

set_option autoImplicit false

namespace Floodgate

/-! ## Running readers one after another -/

theorem except_bind_eq_ok {ε α β : Type} {e : Except ε α} {f : α → Except ε β} {b : β}
    (h : e >>= f = .ok b) : ∃ a, e = .ok a ∧ f a = .ok b := by
  cases e with
  | error e => cases h
  | ok a => exact ⟨a, rfl, h⟩

/-! ## Fields that both kinds have -/

namespace Json.Record

variable {α : Type} {r r' : Record} {name : String}

theorem optional_congr (h : r'.get? name = r.get? name) (read : Json → Option α) :
    r'.optional name read = r.optional name read := by
  simp only [optional, h]

theorem defaulted_congr (h : r'.get? name = r.get? name) (default : α) (read : Json → Option α) :
    r'.defaulted name default read = r.defaulted name default read := by
  simp only [defaulted, h]

theorem get?_of_optional {read : Json → Option α} {a : α}
    (h : r.optional name read = some (some a)) : ∃ j, r.get? name = some j ∧ read j = some a := by
  unfold optional at h
  split at h
  · cases h
  · cases h
  · rename_i j _ hj
    obtain ⟨a', ha, e⟩ := Option.map_eq_some_iff.mp h
    cases e
    exact ⟨j, hj, ha⟩

/-- A field is missing if there is no such member, or if it is `null`. -/
theorem optional_eq_none_iff {read : Json → Option α} :
    r.optional name read = some none ↔ r.get? name = none ∨ r.get? name = some .null := by
  unfold optional
  split <;> simp_all

/-- A field that is read as a signed integer holds that integer. -/
theorem get?_of_signed {i : Int} (h : r.optional name signed? = some (some i)) :
    r.get? name = some (.int i) := by
  obtain ⟨j, hj, hi⟩ := get?_of_optional h
  cases j with
  | int k =>
    simp only [signed?] at hi
    split at hi
    · cases hi
      exact hj
    · cases hi
  | _ => cases hi

/-- A field that is read as a text holds that text. -/
theorem get?_of_string {s : String} (h : r.optional name string? = some (some s)) :
    r.get? name = some (.str s) := by
  obtain ⟨j, hj, hs⟩ := get?_of_optional h
  cases j with
  | str t =>
    cases hs
    exact hj
  | _ => cases hs

/-- Same records give equal fields, where the reader of the field cannot tell same values apart. -/
theorem Same.optional_inj (h : r.Same r') {read : Json → Option α} (hread : IsBlunt read)
    {x y : Option α} (hx : r.optional name read = some x) (hy : r'.optional name read = some y) :
    x = y := Option.some.inj (hx.symm.trans ((h.optional_eq hread name).trans hy))

theorem Same.defaulted_inj (h : r.Same r') {read : Json → Option α} (hread : IsBlunt read)
    {default x y : α} (hx : r.defaulted name default read = some x)
    (hy : r'.defaulted name default read = some y) : x = y :=
  Option.some.inj (hx.symm.trans ((h.defaulted_eq hread name default).trans hy))

/-- A record is read from the members of an object. A name that belongs to one field only is found
under that name. -/
theorem get?_eq_lookup {fields : List Field} {members : List (String × Json)}
    (hr : ofJson? fields (.obj members) = some r) (h : IsOwn fields name) :
    r.get? name = members.lookup name := by
  simp only [ofJson?, ofObject?] at hr
  split at hr
  · cases hr
  · cases hr
    exact h.lookup_fieldsOf members

/-- A field with another name is read from the member of either name. An object that has both is no
record at all, so it does not matter which is looked at first. -/
theorem get?_eq_or {fields : List Field} {members : List (String × Json)} {other : String}
    (hr : ofJson? fields (.obj members) = some r) (h : HasAlias fields name other) :
    r.get? name = (members.lookup name).or (members.lookup other) := by
  simp only [ofJson?, ofObject?] at hr
  split at hr
  · cases hr
  · rename_i hno
    cases hr
    exact h.lookup_fieldsOf ((hasRepeats_eq_false_iff _).mp (Bool.eq_false_iff.mpr hno))

end Json.Record

theorem Target.withScope_eq_ok {scope : Scope} {otherwise : Malformed} {o : Option Resource}
    {r : Resource} (h : withScope scope otherwise o = .ok r) : o = some r ∧ r.scope = scope := by
  unfold withScope at h
  split at h
  · split at h
    · rename_i hscope
      cases h
      exact ⟨rfl, hscope⟩
    · cases h
  · cases h

/-- A deletion names its resource if it can, even where it has an id. -/
theorem Target.deletion_of_resolve {R : Type} {t : Target} {r : Resource} (h : t.resolve = .ok r)
    (id : Option Int) : t.deletion (R := R) id = .ok (.delete id (some r)) := by
  unfold deletion
  rw [h]
  cases id <;> rfl

theorem Target.deletion_ne_upsert {R : Type} {t : Target} {id : Option Int} {rule : R} :
    t.deletion id ≠ .ok (.upsert rule) := by
  unfold deletion
  split <;> simp

/-! ## Documents of limit rules -/

namespace LimitDocument

open Json (Record)

variable {d d' : LimitDocument} {rule : LimitRule} {r r' : Record}

/-- What the fields of a record say. It lists every field of the document with the member that it is
read from, so that proofs need not follow the reader. -/
structure ReadFrom (r : Record) (d : LimitDocument) : Prop where
  id : r.optional "id" Json.signed? = some d.id
  key : r.optional "resourceId" Json.string? = some d.key
  type : r.optional "type" Json.unsigned8? = some d.type
  service : r.optional "service" Json.string? = some d.service
  app : r.optional "app" Json.string? = some d.app
  path : r.optional "path" Json.string? = some d.path
  qps : r.optional "qps" Json.signed? = some d.qps
  concurrency : r.optional "concurrents" Json.signed? = some d.concurrency
  enabled : r.defaulted "enable" true Json.flag? = some d.enabled
  deleted : r.defaulted "isDeleted" false Json.flag? = some d.deleted
  responseType : r.optional "responseType" Json.string? = some d.responseType
  responseContent : r.optional "responseContent" Json.string? = some d.responseContent
  responseStatus : r.optional "responseStatus" Json.unsigned16? = some d.responseStatus

/-- **A document is read exactly if each of its fields is.** No field depends on another. -/
theorem ofJson?_eq_some_iff {j : Json} :
    ofJson? j = some d ↔ ∃ r, Record.ofJson? fields j = some r ∧ ReadFrom r d := by
  constructor
  · intro h
    obtain ⟨r, hr, h⟩ := Option.bind_eq_some_iff.mp h
    -- from here on each bind reads one field
    iterate 13 obtain ⟨_, _, h⟩ := Option.bind_eq_some_iff.mp h
    cases h
    exact ⟨r, hr, by constructor <;> assumption⟩
  · rintro ⟨r, hr, hread⟩
    cases hread
    refine Option.bind_eq_some_iff.mpr ⟨r, hr, ?_⟩
    iterate 13 refine Option.bind_eq_some_iff.mpr ⟨_, by assumption, ?_⟩
    rfl

theorem isOwn_id : Record.IsOwn fields "id" := by decide

theorem isOwn_isDeleted : Record.IsOwn fields "isDeleted" := by decide

/-- Marking a document as deleted changes one field of it. The mark is the number one, which a flag
takes for true. -/
theorem ReadFrom.deleted_of (h : ReadFrom r d)
    (hother : ∀ name, name ≠ "isDeleted" → r'.get? name = r.get? name)
    (hdeleted : r'.get? "isDeleted" = some (.int 1)) : ReadFrom r' { d with deleted := true } where
  id := (Record.optional_congr (hother _ (by decide)) _).trans h.id
  key := (Record.optional_congr (hother _ (by decide)) _).trans h.key
  type := (Record.optional_congr (hother _ (by decide)) _).trans h.type
  service := (Record.optional_congr (hother _ (by decide)) _).trans h.service
  app := (Record.optional_congr (hother _ (by decide)) _).trans h.app
  path := (Record.optional_congr (hother _ (by decide)) _).trans h.path
  qps := (Record.optional_congr (hother _ (by decide)) _).trans h.qps
  concurrency := (Record.optional_congr (hother _ (by decide)) _).trans h.concurrency
  enabled := (Record.defaulted_congr (hother _ (by decide)) _ _).trans h.enabled
  deleted := by
    simp only [Record.defaulted, hdeleted]
    decide
  responseType := (Record.optional_congr (hother _ (by decide)) _).trans h.responseType
  responseContent := (Record.optional_congr (hother _ (by decide)) _).trans h.responseContent
  responseStatus := (Record.optional_congr (hother _ (by decide)) _).trans h.responseStatus

open Json in
/-- Same records are read as equal documents, for no field of a limit rule is a fraction. -/
theorem ReadFrom.eq_of_same (h : ReadFrom r d) (h' : ReadFrom r' d') (hs : r.Same r') : d = d' := by
  cases d
  cases d'
  simp only [LimitDocument.mk.injEq]
  exact ⟨hs.optional_inj isBlunt_signed? h.id h'.id, hs.optional_inj isBlunt_string? h.key h'.key,
    hs.optional_inj (isBlunt_below? _) h.type h'.type,
    hs.optional_inj isBlunt_string? h.service h'.service,
    hs.optional_inj isBlunt_string? h.app h'.app, hs.optional_inj isBlunt_string? h.path h'.path,
    hs.optional_inj isBlunt_signed? h.qps h'.qps,
    hs.optional_inj isBlunt_signed? h.concurrency h'.concurrency,
    hs.defaulted_inj isBlunt_flag? h.enabled h'.enabled,
    hs.defaulted_inj isBlunt_flag? h.deleted h'.deleted,
    hs.optional_inj isBlunt_string? h.responseType h'.responseType,
    hs.optional_inj isBlunt_string? h.responseContent h'.responseContent,
    hs.optional_inj (isBlunt_below? _) h.responseStatus h'.responseStatus⟩

/-- A document that puts a rule in force, and what of the rule comes from where. The resource is the
only part that takes several fields of the document. -/
structure Describes (d : LimitDocument) (rule : LimitRule) : Prop where
  kept : d.deleted = false
  id : rule.id = d.id
  resource : d.target.resolve = .ok rule.resource
  qps : rule.qps = ceiling? d.qps
  concurrency : rule.concurrency = ceiling? d.concurrency
  enabled : rule.enabled = d.enabled
  response : rule.response = .ofGiven d.responseStatus d.responseType d.responseContent

/-- A document that puts a rule in force is not marked as deleted, and everything in the rule comes
from it. -/
theorem toUpdate_eq_upsert (h : d.toUpdate = .ok (.upsert rule)) : Describes d rule := by
  unfold toUpdate at h
  split at h
  · exact absurd h Target.deletion_ne_upsert
  · rename_i hkept
    obtain ⟨resource, hresource, h⟩ := except_bind_eq_ok h
    cases h
    exact ⟨Bool.eq_false_iff.mpr hkept, rfl, hresource, rfl, rfl, rfl, rfl⟩

/-- The same document marked as deleted asks for its own rule to be removed. -/
theorem toUpdate_deleted {resource : Resource} (h : d.target.resolve = .ok resource) :
    { d with deleted := true }.toUpdate = .ok (.delete d.id (some resource)) := by
  rw [toUpdate, if_pos rfl]
  exact Target.deletion_of_resolve h d.id

end LimitDocument

/-! ## Documents of degrade rules -/

namespace DegradeDocument

open Json (Record)

variable {d d' : DegradeDocument} {rule rule' : DegradeRule} {r r' : Record}

/-- What the fields of a record say. The threshold is read as a float, which is what sets these
records apart from those of limit rules. -/
structure ReadFrom (r : Record) (d : DegradeDocument) : Prop where
  id : r.optional "id" Json.signed? = some d.id
  key : r.optional "resourceId" Json.string? = some d.key
  type : r.optional "type" Json.unsigned8? = some d.type
  service : r.optional "service" Json.string? = some d.service
  app : r.optional "app" Json.string? = some d.app
  path : r.optional "path" Json.string? = some d.path
  strategy : r.optional "strategy" Json.unsigned8? = some d.strategy
  ratioThreshold : r.optional "ratioThreshold" Json.float? = some d.ratioThreshold
  exceptionCount : r.optional "exceptionCount" Json.unsigned64? = some d.exceptionCount
  minRequestCount : r.optional "minRequestCount" Json.unsigned64? = some d.minRequestCount
  timeWindow : r.optional "timeWindow" Json.unsigned64? = some d.timeWindow
  statInterval : r.optional "statInterval" Json.unsigned64? = some d.statInterval
  recoveryStrategy : r.optional "recoveryStrategy" Json.unsigned8? = some d.recoveryStrategy
  recoveryTimeWindow : r.optional "recoveryTimeWindow" Json.unsigned64? = some d.recoveryTimeWindow
  responseContentType : r.optional "responseContentType" Json.string? = some d.responseContentType
  responseContent : r.optional "responseContent" Json.string? = some d.responseContent
  responseStatus : r.optional "responseStatus" Json.unsigned16? = some d.responseStatus
  enabled : r.defaulted "enable" true Json.flag? = some d.enabled
  deleted : r.defaulted "isDeleted" false Json.flag? = some d.deleted

/-- A degrade document is read field by field as well, though it has more of them. -/
theorem ofJson?_eq_some_iff {j : Json} :
    ofJson? j = some d ↔ ∃ r, Record.ofJson? fields j = some r ∧ ReadFrom r d := by
  constructor
  · intro h
    obtain ⟨r, hr, h⟩ := Option.bind_eq_some_iff.mp h
    -- from here on each bind reads one field
    iterate 19 obtain ⟨_, _, h⟩ := Option.bind_eq_some_iff.mp h
    cases h
    exact ⟨r, hr, by constructor <;> assumption⟩
  · rintro ⟨r, hr, hread⟩
    cases hread
    refine Option.bind_eq_some_iff.mpr ⟨r, hr, ?_⟩
    iterate 19 refine Option.bind_eq_some_iff.mpr ⟨_, by assumption, ?_⟩
    rfl

theorem isOwn_id : Record.IsOwn fields "id" := by decide

theorem isOwn_isDeleted : Record.IsOwn fields "isDeleted" := by decide

theorem ReadFrom.deleted_of (h : ReadFrom r d)
    (hother : ∀ name, name ≠ "isDeleted" → r'.get? name = r.get? name)
    (hdeleted : r'.get? "isDeleted" = some (.int 1)) : ReadFrom r' { d with deleted := true } where
  id := (Record.optional_congr (hother _ (by decide)) _).trans h.id
  key := (Record.optional_congr (hother _ (by decide)) _).trans h.key
  type := (Record.optional_congr (hother _ (by decide)) _).trans h.type
  service := (Record.optional_congr (hother _ (by decide)) _).trans h.service
  app := (Record.optional_congr (hother _ (by decide)) _).trans h.app
  path := (Record.optional_congr (hother _ (by decide)) _).trans h.path
  strategy := (Record.optional_congr (hother _ (by decide)) _).trans h.strategy
  ratioThreshold := (Record.optional_congr (hother _ (by decide)) _).trans h.ratioThreshold
  exceptionCount := (Record.optional_congr (hother _ (by decide)) _).trans h.exceptionCount
  minRequestCount := (Record.optional_congr (hother _ (by decide)) _).trans h.minRequestCount
  timeWindow := (Record.optional_congr (hother _ (by decide)) _).trans h.timeWindow
  statInterval := (Record.optional_congr (hother _ (by decide)) _).trans h.statInterval
  recoveryStrategy := (Record.optional_congr (hother _ (by decide)) _).trans h.recoveryStrategy
  recoveryTimeWindow := (Record.optional_congr (hother _ (by decide)) _).trans h.recoveryTimeWindow
  responseContentType :=
    (Record.optional_congr (hother _ (by decide)) _).trans h.responseContentType
  responseContent := (Record.optional_congr (hother _ (by decide)) _).trans h.responseContent
  responseStatus := (Record.optional_congr (hother _ (by decide)) _).trans h.responseStatus
  enabled := (Record.defaulted_congr (hother _ (by decide)) _ _).trans h.enabled
  deleted := by
    simp only [Record.defaulted, hdeleted]
    decide

open Json in
/-- Documents read from same records differ in the threshold at most. It is the only field that is a
float, and there zeros of either sign are the same. -/
theorem ReadFrom.eq_of_same (h : ReadFrom r d) (h' : ReadFrom r' d') (hs : r.Same r') :
    d' = { d with ratioThreshold := d'.ratioThreshold } := by
  cases d
  cases d'
  simp only [DegradeDocument.mk.injEq]
  exact ⟨(hs.optional_inj isBlunt_signed? h.id h'.id).symm,
    (hs.optional_inj isBlunt_string? h.key h'.key).symm,
    (hs.optional_inj (isBlunt_below? _) h.type h'.type).symm,
    (hs.optional_inj isBlunt_string? h.service h'.service).symm,
    (hs.optional_inj isBlunt_string? h.app h'.app).symm,
    (hs.optional_inj isBlunt_string? h.path h'.path).symm,
    (hs.optional_inj (isBlunt_below? _) h.strategy h'.strategy).symm, trivial,
    (hs.optional_inj (isBlunt_below? _) h.exceptionCount h'.exceptionCount).symm,
    (hs.optional_inj (isBlunt_below? _) h.minRequestCount h'.minRequestCount).symm,
    (hs.optional_inj (isBlunt_below? _) h.timeWindow h'.timeWindow).symm,
    (hs.optional_inj (isBlunt_below? _) h.statInterval h'.statInterval).symm,
    (hs.optional_inj (isBlunt_below? _) h.recoveryStrategy h'.recoveryStrategy).symm,
    (hs.optional_inj (isBlunt_below? _) h.recoveryTimeWindow h'.recoveryTimeWindow).symm,
    (hs.optional_inj isBlunt_string? h.responseContentType h'.responseContentType).symm,
    (hs.optional_inj isBlunt_string? h.responseContent h'.responseContent).symm,
    (hs.optional_inj (isBlunt_below? _) h.responseStatus h'.responseStatus).symm,
    (hs.defaulted_inj isBlunt_flag? h.enabled h'.enabled).symm,
    (hs.defaulted_inj isBlunt_flag? h.deleted h'.deleted).symm⟩

/-- The thresholds of documents read from same records are the same number. -/
theorem ReadFrom.threshold_of_same (h : ReadFrom r d) (h' : ReadFrom r' d') (hs : r.Same r')
    {x y : Float} (hx : d.ratioThreshold = some x) (hy : d'.ratioThreshold = some y) :
    x = y ∨ (x == y) = true := by
  obtain ⟨j, hj, hjx⟩ := Record.get?_of_optional (h.ratioThreshold.trans (congrArg some hx))
  obtain ⟨j', hj', hjy⟩ := Record.get?_of_optional (h'.ratioThreshold.trans (congrArg some hy))
  rcases hs "ratioThreshold" with ⟨hn, -⟩ | ⟨k, k', hk, hk', hsame⟩
  · rw [hj] at hn
    cases hn
  · rw [hj] at hk
    rw [hj'] at hk'
    cases hk
    cases hk'
    exact Json.float?_of_same hsame hjx hjy

/-- A document that puts a rule in force, and what of the rule comes from where. -/
structure Describes (d : DegradeDocument) (rule : DegradeRule) : Prop where
  kept : d.deleted = false
  id : rule.id = d.id
  resource : d.target.resolve = .ok rule.resource
  strategy : d.breakStrategy = .ok rule.strategy
  minRequests : rule.minRequests = d.minRequestCount.getD 0
  monitorMs : positiveMillis d.statInterval .missingStatInterval = .ok rule.monitorMs
  breakMs : positiveMillis d.timeWindow .missingTimeWindow = .ok rule.breakMs
  resume : d.resumeStrategy = .ok rule.resume
  enabled : rule.enabled = d.enabled
  response : rule.response = .ofGiven d.responseStatus d.responseContentType d.responseContent

theorem toUpdate_eq_upsert (h : d.toUpdate = .ok (.upsert rule)) : Describes d rule := by
  unfold toUpdate at h
  split at h
  · exact absurd h Target.deletion_ne_upsert
  · rename_i hkept
    obtain ⟨resource, hresource, h⟩ := except_bind_eq_ok h
    dsimp only at h
    split at h
    · cases h
    · obtain ⟨strategy, hstrategy, h⟩ := except_bind_eq_ok h
      obtain ⟨resume, hresume, h⟩ := except_bind_eq_ok h
      obtain ⟨monitorMs, hmonitor, h⟩ := except_bind_eq_ok h
      obtain ⟨breakMs, hbreak, h⟩ := except_bind_eq_ok h
      cases h
      exact ⟨Bool.eq_false_iff.mpr hkept, rfl, hresource, hstrategy, rfl, hmonitor, hbreak, hresume,
        rfl, rfl⟩

theorem toUpdate_deleted {resource : Resource} (h : d.target.resolve = .ok resource) :
    { d with deleted := true }.toUpdate = .ok (.delete d.id (some resource)) := by
  rw [toUpdate, if_pos rfl]
  exact Target.deletion_of_resolve h d.id

/-- A strategy is a ratio above zero and up to one, or a number of errors above zero. There is no
third. -/
theorem breakStrategy_eq_ok_cases {s : BreakStrategy} (h : d.breakStrategy = .ok s) :
    (∃ x, d.strategy = some 1 ∧ d.ratioThreshold = some x ∧ (0.0 < x ∧ x ≤ 1.0) ∧
      s = .errorRatio x) ∨
      ∃ n, d.strategy = some 2 ∧ d.exceptionCount = some n ∧ 0 < n ∧ s = .totalErrors n := by
  unfold breakStrategy at h
  split at h
  · rename_i hs
    split at h
    · rename_i x hx
      split at h
      · rename_i hrange
        cases h
        exact Or.inl ⟨x, hs, hx, hrange, rfl⟩
      · cases h
    · cases h
  · rename_i hs
    split at h
    · rename_i n hn
      split at h
      · rename_i hpos
        cases h
        exact Or.inr ⟨n, hs, hn, hpos, rfl⟩
      · cases h
    · cases h
  · cases h
  · cases h

/-- What passes the check against zero is a number, since no comparison holds of what is not one. -/
theorem isNumeric_of_breakStrategy {s : BreakStrategy} (h : d.breakStrategy = .ok s) :
    s.IsNumeric := by
  rcases breakStrategy_eq_ok_cases h with ⟨x, -, -, hrange, rfl⟩ | ⟨n, -, -, -, rfl⟩
  · exact float_isNaN_of_lt hrange.1
  · trivial

/-- Documents read from same records describe same rules. The rules need not be equal, and `==` is
all that a table asks. -/
theorem Describes.beq_of_same (hd : Describes d rule) (hd' : Describes d' rule')
    (h : ReadFrom r d) (h' : ReadFrom r' d') (hs : r.Same r') : (rule == rule') = true := by
  have hthreshold : ∀ {x y}, d.ratioThreshold = some x → d'.ratioThreshold = some y →
      x = y ∨ (x == y) = true := fun hx hy => h.threshold_of_same h' hs hx hy
  -- the two strategies have one code, so they are of one kind, and only ratios need to be compared
  have hstrategy : (rule.strategy == rule'.strategy) = true := by
    have hcode : d'.strategy = d.strategy := by rw [h.eq_of_same h' hs]
    have hcount : d'.exceptionCount = d.exceptionCount := by rw [h.eq_of_same h' hs]
    have hself := (isNumeric_of_breakStrategy hd.strategy).beq_self
    rcases breakStrategy_eq_ok_cases hd.strategy with ⟨x, hc, hx, -, e⟩ | ⟨n, hc, hn, -, e⟩ <;>
      rcases breakStrategy_eq_ok_cases hd'.strategy with ⟨y, hc', hy, -, e'⟩ | ⟨m, hc', hm, -, e'⟩ <;>
      rw [hcode, hc] at hc'
    · rw [e, e']
      rcases hthreshold hx hy with rfl | hxy
      · rwa [e] at hself
      · exact hxy
    · cases hc'
    · cases hc'
    · rw [hcount, hn] at hm
      cases hm
      rw [e, e']
      rwa [e] at hself
  -- all other parts come from parts of the document that are equal
  rw [h.eq_of_same h' hs] at hd'
  rw [degradeRule_beq_iff]
  exact ⟨hd.id.trans hd'.id.symm, Except.ok.inj (hd.resource.symm.trans hd'.resource), hstrategy,
    hd.minRequests.trans hd'.minRequests.symm,
    Except.ok.inj (hd.monitorMs.symm.trans hd'.monitorMs),
    Except.ok.inj (hd.breakMs.symm.trans hd'.breakMs),
    Except.ok.inj (hd.resume.symm.trans hd'.resume), hd.enabled.trans hd'.enabled.symm,
    hd.response.trans hd'.response.symm⟩

end DegradeDocument

/-! ## What a document asks for -/

/-- The id and the resource of the rule that a change puts in force, if it puts one in force that
has an id. Rules without an id are not found again by one, so they are left out. -/
def RuleChange.subject? : RuleChange → Option (Int × Resource)
  | .rateLimit (.upsert rule) => rule.id.map fun i => (i, rule.resource)
  | .degrade (.upsert rule) => rule.id.map fun i => (i, rule.resource)
  | .rateLimit (.delete ..) | .degrade (.delete ..) => none

namespace RawRule

variable {raw : RawRule} {c : RuleChange}

/-- The id and the resource of the rule that a document puts in force, if it puts one in force that
has an id. -/
def subject? (raw : RawRule) : Option (Int × Resource) :=
  match raw.parse with
  | .ok c => c.subject?
  | .error _ => none

/-- A document is parsed as one of its kind, never as one of the other. -/
theorem parse_rateLimit_iff {u : RuleUpdate LimitRule} :
    raw.parse = .ok (.rateLimit u) ↔ raw.kind = .rateLimit ∧
      ∃ d, LimitDocument.ofJson? raw.document = some d ∧ d.toUpdate = .ok u := by
  obtain ⟨kind, document⟩ := raw
  cases kind with
  | degrade =>
    refine iff_of_false (fun h => ?_) fun h => nomatch h.1
    rcases parse_eq_ok_cases h with ⟨hk, -⟩ | ⟨-, u', e⟩
    · cases hk
    · cases e
  | rateLimit =>
    simp only [parse, true_and]
    cases LimitDocument.ofJson? document with
    | none => simp
    | some d => cases hd : d.toUpdate <;> simp [Except.map, Except.mapError, hd]

theorem parse_degrade_iff {u : RuleUpdate DegradeRule} :
    raw.parse = .ok (.degrade u) ↔ raw.kind = .degrade ∧
      ∃ d, DegradeDocument.ofJson? raw.document = some d ∧ d.toUpdate = .ok u := by
  obtain ⟨kind, document⟩ := raw
  cases kind with
  | rateLimit =>
    refine iff_of_false (fun h => ?_) fun h => nomatch h.1
    rcases parse_eq_ok_cases h with ⟨-, u', e⟩ | ⟨hk, -⟩
    · cases e
    · cases hk
  | degrade =>
    simp only [parse, true_and]
    cases DegradeDocument.ofJson? document with
    | none => simp
    | some d => cases hd : d.toUpdate <;> simp [Except.map, Except.mapError, hd]

/-- **A threshold that comes from a document is a number.** So the rules of a file can be compared
with themselves, which rules made by hand cannot always be. -/
theorem isNumeric_of_parse (h : raw.parse = .ok c) : c.IsNumeric := by
  cases c with
  | rateLimit u => trivial
  | degrade u =>
    cases u with
    | delete id resource => trivial
    | upsert rule =>
      obtain ⟨-, d, -, hd⟩ := parse_degrade_iff.mp h
      exact DegradeDocument.isNumeric_of_breakStrategy (DegradeDocument.toUpdate_eq_upsert hd).strategy

/-- A rule that goes by a number of errors asks for one at least. -/
theorem pos_of_parse_totalErrors {rule : DegradeRule} {n : Nat}
    (h : raw.parse = .ok (.degrade (.upsert rule))) (hstrategy : rule.strategy = .totalErrors n) :
    0 < n := by
  obtain ⟨-, d, -, hd⟩ := parse_degrade_iff.mp h
  rcases DegradeDocument.breakStrategy_eq_ok_cases (DegradeDocument.toUpdate_eq_upsert hd).strategy
    with ⟨x, -, -, -, hs⟩ | ⟨m, -, -, hm, hs⟩
  · rw [hs] at hstrategy
    cases hstrategy
  · rw [hs] at hstrategy
    cases hstrategy
    exact hm

end RawRule

/-! ## Both kinds alike -/

/-- How the changes of one kind of rule are told from those of the other. With this a theorem about
rule files is stated once for both kinds. -/
class Documented (R : Type) where
  kind : RuleKind
  change : RuleUpdate R → RuleChange
  update? : RuleChange → Option (RuleUpdate R)
  /-- The rules of the kind in a pair of plain sets. -/
  rules : PlainBook → List R

instance : Documented LimitRule where
  kind := .rateLimit
  change := .rateLimit
  update?
    | .rateLimit u => some u
    | .degrade _ => none
  rules := PlainBook.limits

instance : Documented DegradeRule where
  kind := .degrade
  change := .degrade
  update?
    | .degrade u => some u
    | .rateLimit _ => none
  rules := PlainBook.degrades

/-- A document puts a rule in force. -/
def RawRule.Describes {R : Type} [Documented R] (raw : RawRule) (rule : R) : Prop :=
  raw.parse = .ok (Documented.change (.upsert rule))

open Documented in
/-- What the documents of a kind must do for the theory of rule files. -/
class LawfulDocumented (R : Type) [Rule R] [Documented R] : Prop extends LawfulRule R where
  update?_eq_some_iff : ∀ {c : RuleChange} {u : RuleUpdate R}, update? c = some u ↔ c = change u
  kind_iff : ∀ {raw : RawRule} {c : RuleChange}, raw.parse = .ok c →
    (raw.kind = kind R ↔ (update? (R := R) c).isSome)
  rules_after : ∀ (s : PlainBook) (u : RuleUpdate R), rules (s.after (change u)) = u.onSet (rules s)
  rules_after_other : ∀ (s : PlainBook) {c : RuleChange}, update? (R := R) c = none →
    rules (R := R) (s.after c) = rules s
  isProper : ∀ {u : RuleUpdate R}, (change u).IsNumeric → u.IsProper
  subject?_upsert : ∀ rule : R,
    (change (.upsert rule)).subject? = (Rule.id rule).map fun i => (i, Rule.resource rule)
  subject?_delete : ∀ (id : Option Int) (resource : Option Resource),
    (change (.delete id resource : RuleUpdate R)).subject? = none
  /-- The id of the rule is in the member `id`. -/
  lookup_id : ∀ {raw : RawRule} {rule : R} {members : List (String × Json)} {i : Int},
    raw.document = .obj members → raw.Describes rule → Rule.id rule = some i →
      members.lookup "id" = some (.int i)
  /-- Marked as deleted, the document names the rule by its id and its resource. -/
  parse_markDeleted : ∀ {raw : RawRule} {rule : R} {members : List (String × Json)},
    raw.document = .obj members → Json.IsSorted members → raw.Describes rule →
      raw.markDeleted.parse = .ok (change
        (.delete (Rule.id rule) (some (Rule.resource rule)) : RuleUpdate R))
  beq_of_same : ∀ {raw raw' : RawRule} {rule rule' : R} {members members' : List (String × Json)},
    raw.document = .obj members → raw'.document = .obj members' →
      (raw.document == raw'.document) = true → raw.Describes rule → raw'.Describes rule' →
      (rule == rule') = true

instance : LawfulDocumented LimitRule where
  update?_eq_some_iff {c u} := by cases c <;> simp [Documented.update?, Documented.change]
  kind_iff h := by
    rcases RawRule.parse_eq_ok_cases h with ⟨hk, u, rfl⟩ | ⟨hk, u, rfl⟩ <;>
      simp [hk, Documented.kind, Documented.update?]
  rules_after _ _ := rfl
  rules_after_other s c h := by
    cases c with
    | rateLimit u => cases h
    | degrade u => rfl
  isProper _ := RuleChange.IsNumeric.limitProper
  subject?_upsert _ := rfl
  subject?_delete _ _ := rfl
  lookup_id {raw rule members i} hobj h hi := by
    obtain ⟨-, d, hd, hu⟩ := RawRule.parse_rateLimit_iff.mp h
    obtain ⟨r, hr, hread⟩ := LimitDocument.ofJson?_eq_some_iff.mp hd
    rw [hobj] at hr
    have hid : d.id = some i := (LimitDocument.toUpdate_eq_upsert hu).id.symm.trans hi
    rw [← Json.Record.get?_eq_lookup hr LimitDocument.isOwn_id]
    exact Json.Record.get?_of_signed (hread.id.trans (congrArg some hid))
  parse_markDeleted {raw rule members} hobj hsorted h := by
    obtain ⟨hkind, d, hd, hu⟩ := RawRule.parse_rateLimit_iff.mp h
    have hdescribes := LimitDocument.toUpdate_eq_upsert hu
    obtain ⟨r, hr, hread⟩ := LimitDocument.ofJson?_eq_some_iff.mp hd
    rw [hobj] at hr
    obtain ⟨r', hr', hget⟩ :=
      Json.Record.ofObject?_set LimitDocument.isOwn_isDeleted hsorted hr (.int 1)
    -- the marked object is read as the same document but for the mark, and a deletion needs no more
    refine RawRule.parse_rateLimit_iff.mpr ⟨hkind, { d with deleted := true }, ?_, ?_⟩
    · rw [LimitDocument.ofJson?_eq_some_iff, RawRule.markDeleted, hobj]
      exact ⟨r', hr', hread.deleted_of (fun name hn => by rw [hget, if_neg hn])
        (by rw [hget, if_pos rfl])⟩
    · exact (LimitDocument.toUpdate_deleted hdescribes.resource).trans
        (by rw [← hdescribes.id]; rfl)
  beq_of_same {raw raw' rule rule' members members'} hobj hobj' hsame h h' := by
    obtain ⟨-, d, hd, hu⟩ := RawRule.parse_rateLimit_iff.mp h
    obtain ⟨-, d', hd', hu'⟩ := RawRule.parse_rateLimit_iff.mp h'
    obtain ⟨r, hr, hread⟩ := LimitDocument.ofJson?_eq_some_iff.mp hd
    obtain ⟨r', hr', hread'⟩ := LimitDocument.ofJson?_eq_some_iff.mp hd'
    rw [hobj] at hr hsame
    rw [hobj'] at hr' hsame
    obtain rfl := hread.eq_of_same hread' (Json.Record.same_of_ofObject? hsame hr hr')
    rw [hu] at hu'
    cases hu'
    exact beq_self_eq_true rule

instance : LawfulDocumented DegradeRule where
  update?_eq_some_iff {c u} := by cases c <;> simp [Documented.update?, Documented.change]
  kind_iff h := by
    rcases RawRule.parse_eq_ok_cases h with ⟨hk, u, rfl⟩ | ⟨hk, u, rfl⟩ <;>
      simp [hk, Documented.kind, Documented.update?]
  rules_after _ _ := rfl
  rules_after_other s c h := by
    cases c with
    | rateLimit u => rfl
    | degrade u => cases h
  isProper h := RuleChange.IsNumeric.degradeProper h
  subject?_upsert _ := rfl
  subject?_delete _ _ := rfl
  lookup_id {raw rule members i} hobj h hi := by
    obtain ⟨-, d, hd, hu⟩ := RawRule.parse_degrade_iff.mp h
    obtain ⟨r, hr, hread⟩ := DegradeDocument.ofJson?_eq_some_iff.mp hd
    rw [hobj] at hr
    have hid : d.id = some i := (DegradeDocument.toUpdate_eq_upsert hu).id.symm.trans hi
    rw [← Json.Record.get?_eq_lookup hr DegradeDocument.isOwn_id]
    exact Json.Record.get?_of_signed (hread.id.trans (congrArg some hid))
  parse_markDeleted {raw rule members} hobj hsorted h := by
    obtain ⟨hkind, d, hd, hu⟩ := RawRule.parse_degrade_iff.mp h
    have hdescribes := DegradeDocument.toUpdate_eq_upsert hu
    obtain ⟨r, hr, hread⟩ := DegradeDocument.ofJson?_eq_some_iff.mp hd
    rw [hobj] at hr
    obtain ⟨r', hr', hget⟩ :=
      Json.Record.ofObject?_set DegradeDocument.isOwn_isDeleted hsorted hr (.int 1)
    refine RawRule.parse_degrade_iff.mpr ⟨hkind, { d with deleted := true }, ?_, ?_⟩
    · rw [DegradeDocument.ofJson?_eq_some_iff, RawRule.markDeleted, hobj]
      exact ⟨r', hr', hread.deleted_of (fun name hn => by rw [hget, if_neg hn])
        (by rw [hget, if_pos rfl])⟩
    · exact (DegradeDocument.toUpdate_deleted hdescribes.resource).trans
        (by rw [← hdescribes.id]; rfl)
  beq_of_same {raw raw' rule rule' members members'} hobj hobj' hsame h h' := by
    obtain ⟨-, d, hd, hu⟩ := RawRule.parse_degrade_iff.mp h
    obtain ⟨-, d', hd', hu'⟩ := RawRule.parse_degrade_iff.mp h'
    obtain ⟨r, hr, hread⟩ := DegradeDocument.ofJson?_eq_some_iff.mp hd
    obtain ⟨r', hr', hread'⟩ := DegradeDocument.ofJson?_eq_some_iff.mp hd'
    rw [hobj] at hr hsame
    rw [hobj'] at hr' hsame
    exact (DegradeDocument.toUpdate_eq_upsert hu).beq_of_same
      (DegradeDocument.toUpdate_eq_upsert hu') hread hread'
      (Json.Record.same_of_ofObject? hsame hr hr')

end Floodgate
