import Floodgate.Proofs.Json.Quoting
import Floodgate.Proofs.Rule.Sanity
import Floodgate.Proofs.Rule.Targets
import Floodgate.Proofs.Source.Polling

/-!
# Which documents a rule file takes for one

A document without an id is recognised by the key of its resource, else by the members that name it.
These are written one after another, and what was written can be told from the text (`namesKey_inj`):
a number and a string in quotes do not run into each other, whatever is in the string. So different
resources have different keys, with two exceptions. An array has no members, so all arrays have one
key. And a blank key of a resource is passed over where the document is read as a rule, but is what
the document is recognised by. `RawRule.documentKey_eq_iff` says that there are no others.
-/

set_option autoImplicit false

namespace Floodgate

/-! ## What the documents of both kinds say of their resource -/

/-- The fields of the documents of a kind. -/
def RuleKind.fields : RuleKind → List Json.Field
  | .rateLimit => LimitDocument.fields
  | .degrade => DegradeDocument.fields

/-- The scopes by their numbers in documents of a kind. -/
def RuleKind.scopeOf? : RuleKind → Nat → Option Scope
  | .rateLimit => LimitDocument.scopeOf?
  | .degrade => DegradeDocument.scopeOf?

/-- The fields of a record that name a resource. -/
structure Target.ReadFrom (kind : RuleKind) (r : Json.Record) (t : Target) : Prop where
  key : r.optional "resourceId" Json.string? = some t.key
  scope : ∃ n, r.optional "type" Json.unsigned8? = some n ∧ t.scope = n.bind kind.scopeOf?
  service : r.optional "service" Json.string? = some t.service
  app : r.optional "app" Json.string? = some t.app
  path : r.optional "path" Json.string? = some t.path

/-- A document puts a rule for a resource in force that has no id. -/
def RawRule.IsUnnumbered (raw : RawRule) (resource : Resource) : Prop :=
  ∃ c, raw.parse = .ok c ∧ c.resource? = some resource ∧ c.subject? = none

theorem LimitDocument.ReadFrom.target {r : Json.Record} {d : LimitDocument} (h : ReadFrom r d) :
    d.target.ReadFrom .rateLimit r :=
  ⟨h.key, ⟨_, h.type, rfl⟩, h.service, h.app, h.path⟩

theorem DegradeDocument.ReadFrom.target {r : Json.Record} {d : DegradeDocument}
    (h : ReadFrom r d) : d.target.ReadFrom .degrade r :=
  ⟨h.key, ⟨_, h.type, rfl⟩, h.service, h.app, h.path⟩

theorem RawRule.IsUnnumbered.exists_target {raw : RawRule} {resource : Resource}
    (h : raw.IsUnnumbered resource) :
    ∃ r t, Json.Record.ofJson? raw.kind.fields raw.document = some r ∧
      r.optional "id" Json.signed? = some none ∧ Target.ReadFrom raw.kind r t ∧
      t.resolve = .ok resource := by
  obtain ⟨c, hc, hresource, hid⟩ := h
  cases c with
  | rateLimit u =>
    cases u with
    | delete id resource => cases hresource
    | upsert rule =>
      cases hresource
      obtain ⟨hkind, d, hd, hu⟩ := parse_rateLimit_iff.mp hc
      obtain ⟨r, hr, hread⟩ := LimitDocument.ofJson?_eq_some_iff.mp hd
      have hrule := LimitDocument.toUpdate_eq_upsert hu
      have hnone : d.id = none := hrule.id.symm.trans (Option.map_eq_none_iff.mp hid)
      rw [hkind]
      exact ⟨r, d.target, hr, hread.id.trans (congrArg some hnone), hread.target, hrule.resource⟩
  | degrade u =>
    cases u with
    | delete id resource => cases hresource
    | upsert rule =>
      cases hresource
      obtain ⟨hkind, d, hd, hu⟩ := parse_degrade_iff.mp hc
      obtain ⟨r, hr, hread⟩ := DegradeDocument.ofJson?_eq_some_iff.mp hd
      have hrule := DegradeDocument.toUpdate_eq_upsert hu
      have hnone : d.id = none := hrule.id.symm.trans (Option.map_eq_none_iff.mp hid)
      rw [hkind]
      exact ⟨r, d.target, hr, hread.id.trans (congrArg some hnone), hread.target, hrule.resource⟩

namespace RuleKind

variable (kind : RuleKind)

theorem isOwn_id : Json.Record.IsOwn kind.fields "id" := by cases kind <;> decide

theorem isOwn_resourceId : Json.Record.IsOwn kind.fields "resourceId" := by cases kind <;> decide

theorem isOwn_type : Json.Record.IsOwn kind.fields "type" := by cases kind <;> decide

theorem isOwn_app : Json.Record.IsOwn kind.fields "app" := by cases kind <;> decide

theorem isOwn_path : Json.Record.IsOwn kind.fields "path" := by cases kind <;> decide

theorem hasAlias_service : Json.Record.HasAlias kind.fields "service" "resource" := by
  cases kind <;> decide

end RuleKind

/-! ## The text of the members that name a resource -/

/-- How a name stands in a key: as a written string, or as `null` or not at all if there is none. -/
inductive NameText : Option String → String → Prop where
  | absent : NameText none ""
  | null : NameText none "null"
  | str (s : String) : NameText (some s) (Json.quote s)

/-- Where a name and a bar come first, it is known which name that is. -/
theorem NameText.append_inj {name name' : Option String} {text text' : String}
    (h : NameText name text) (h' : NameText name' text') {rest rest' : List Char}
    (e : text.toList ++ '|' :: rest = text'.toList ++ '|' :: rest') :
    name = name' ∧ rest = rest' := by
  cases h with
  | absent =>
    cases h' with
    | absent => simpa using e
    | null => simp at e
    | str s => simp [Json.toList_quote] at e
  | null =>
    cases h' with
    | absent => simp at e
    | null => simpa using e
    | str s => simp [Json.toList_quote] at e
  | str s =>
    cases h' with
    | absent => simp [Json.toList_quote] at e
    | null => simp [Json.toList_quote] at e
    | str s' =>
      obtain ⟨rfl, hrest⟩ := Json.quote_append_inj e
      exact ⟨rfl, (List.cons.inj hrest).2⟩

/-- Where two texts without bars come before a bar each, they are the same. -/
theorem bar_append_inj {text text' rest rest' : List Char} (h : '|' ∉ text) (h' : '|' ∉ text')
    (e : text ++ '|' :: rest = text' ++ '|' :: rest') : text = text' ∧ rest = rest' := by
  induction text generalizing text' with
  | nil =>
    cases text' with
    | nil => exact ⟨rfl, (List.cons.inj e).2⟩
    | cons c cs => exact absurd ((List.cons.inj e).1 ▸ List.mem_cons_self) h'
  | cons c cs ih =>
    cases text' with
    | nil => exact absurd ((List.cons.inj e).1 ▸ List.mem_cons_self) h
    | cons c' cs' =>
      obtain ⟨rfl, htail⟩ := List.cons.inj e
      obtain ⟨rfl, hrest⟩ :=
        ih (List.not_mem_of_not_mem_cons h) (List.not_mem_of_not_mem_cons h') htail
      exact ⟨rfl, hrest⟩

theorem bar_notMem_repr (n : Nat) : '|' ∉ n.repr.toList := by
  rw [Nat.toList_repr]
  intro h
  have hdigit := Nat.isDigit_of_mem_toDigits (by decide) (by decide) h
  cases hdigit

/-- A document is an array. -/
def Json.IsArray (j : Json) : Prop := ∃ items, j = .arr items

/-- The key of a document that does not give the key of its resource. -/
def namesKey (type app service path : String) : String :=
  "fields:" ++ type ++ "|" ++ app ++ "|" ++ service ++ "|" ++ path

theorem namesKey_ne_keyed {type app service path key : String} :
    namesKey type app service path ≠ "resource:" ++ key := by
  intro h
  have e := congrArg String.toList h
  simp [namesKey] at e

/-- The texts of the names that a document gives. -/
structure Target.IsWritten (t : Target) (app service path : String) : Prop where
  app : NameText t.app app
  service : NameText t.service service
  path : NameText t.path path

/-- With a bar after the path, each part of a key has a bar after it. -/
theorem toList_namesKey (type app service path : String) :
    (namesKey type app service path).toList ++ ['|'] =
      "fields:".toList ++ (type.toList ++ '|' :: (app.toList ++ '|' ::
        (service.toList ++ '|' :: (path.toList ++ ['|'])))) := by
  simp [namesKey]

/-- **What is written in a key can be told from it**: the type, and the names. -/
theorem namesKey_inj {t t' : Target} {type type' app app' service service' path path' : String}
    (htype : '|' ∉ type.toList) (htype' : '|' ∉ type'.toList) (ht : t.IsWritten app service path)
    (ht' : t'.IsWritten app' service' path')
    (h : namesKey type app service path = namesKey type' app' service' path') :
    type = type' ∧ t.app = t'.app ∧ t.service = t'.service ∧ t.path = t'.path := by
  have e := congrArg (fun key => key.toList ++ ['|']) h
  simp only [toList_namesKey] at e
  obtain ⟨htype, e⟩ := bar_append_inj htype htype' (List.append_cancel_left e)
  obtain ⟨happ, e⟩ := ht.app.append_inj ht'.app e
  obtain ⟨hservice, e⟩ := ht.service.append_inj ht'.service e
  obtain ⟨hpath, -⟩ := ht.path.append_inj ht'.path e
  exact ⟨String.toList_inj.mp htype, happ, hservice, hpath⟩

/-- A document that gives the number of its type is not recognised as one that gives nothing. -/
theorem namesKey_empty_ne {t : Target} {n : Nat} {app service path : String}
    (ht : t.IsWritten app service path) :
    namesKey "" "" "" "" ≠ namesKey n.repr app service path := by
  intro h
  have hnone : Target.IsWritten ⟨none, none, none, none, none⟩ "" "" "" :=
    ⟨.absent, .absent, .absent⟩
  obtain ⟨htype, -⟩ := namesKey_inj (by simp) (bar_notMem_repr n) hnone ht h
  have hdigits := congrArg String.toList htype
  rw [Nat.toList_repr] at hdigits
  exact Nat.toDigits_ne_nil hdigits.symm

/-! ## The two keys of a document without an id -/

section DocumentKey

variable {document : Json}
  (hid : document.get? "id" = none ∨ document.get? "id" = some .null)
include hid

theorem documentKey_of_noId : documentKey document =
    match document.get? "resourceId" with
    | some (.str key) => "resource:" ++ key
    | _ => namesKey (memberText document "type") (memberText document "app")
        (if (document.get? "service").isSome then memberText document "service"
          else memberText document "resource") (memberText document "path") := by
  rw [documentKey]
  rcases hid with hid | hid <;> rw [hid] <;> rfl

theorem documentKey_of_key {key : String} (hkey : document.get? "resourceId" = some (.str key)) :
    documentKey document = "resource:" ++ key := by
  rw [documentKey_of_noId hid, hkey]

theorem documentKey_of_names (hno : ∀ key, document.get? "resourceId" ≠ some (.str key)) :
    documentKey document = namesKey (memberText document "type") (memberText document "app")
      (if (document.get? "service").isSome then memberText document "service"
        else memberText document "resource") (memberText document "path") := by
  rw [documentKey_of_noId hid]
  split
  · rename_i key hkey
    exact absurd hkey (hno key)
  · rfl

end DocumentKey

theorem documentKey_arr (items : List Json) : documentKey (.arr items) = namesKey "" "" "" "" := rfl

/-! ## How documents without ids are recognised -/

namespace Json.Record

variable {r : Record} {name : String}

/-- The text of a field, empty if it is not given. -/
def text (r : Record) (name : String) : String := ((r.get? name).map render).getD ""

theorem memberText_eq_text {document : Json} (h : document.get? name = r.get? name) :
    memberText document name = r.text name := by
  rw [memberText, h]
  rfl

/-- The text of a field with another name is that of the member of either name. -/
theorem text_of_hasAlias {fields : List Field} {members : List (String × Json)} {other : String}
    (hr : ofJson? fields (.obj members) = some r) (h : HasAlias fields name other) :
    (if ((obj members).get? name).isSome then memberText (.obj members) name
      else memberText (.obj members) other) = r.text name := by
  have hget : r.get? name = ((obj members).get? name).or ((obj members).get? other) := get?_eq_or hr h
  rw [text, hget, memberText, memberText]
  cases (obj members).get? name <;> rfl

/-- The text of a field that is read as a name. -/
theorem nameText {given : Option String} (h : r.optional name string? = some given) :
    NameText given (r.text name) := by
  cases given with
  | none =>
    rw [text]
    rcases optional_eq_none_iff.mp h with hnone | hnull
    · rw [hnone]
      exact .absent
    · rw [hnull]
      exact .null
  | some s =>
    rw [text, get?_of_string h]
    exact .str s

end Json.Record

namespace Target

variable {kind : RuleKind} {r : Json.Record} {t t' : Target} {resource : Resource}

theorem ReadFrom.isWritten (h : t.ReadFrom kind r) :
    t.IsWritten (r.text "app") (r.text "service") (r.text "path") where
  app := Json.Record.nameText h.app
  service := Json.Record.nameText h.service
  path := Json.Record.nameText h.path

/-- A document that does not give the key of its resource gives the number of its scope. -/
theorem ReadFrom.exists_number (h : t.ReadFrom kind r) (hkey : t.key = none)
    (hresolve : t.resolve = .ok resource) :
    ∃ n : Nat, t.scope = kind.scopeOf? n ∧ r.text "type" = n.repr := by
  obtain ⟨given, htype, hscope⟩ := h.scope
  cases given with
  | none =>
    have hunknown : t.resolve = .error .unknownType := by
      rw [resolve, hkey, hscope]
      rfl
    rw [hunknown] at hresolve
    cases hresolve
  | some n =>
    obtain ⟨j, hj, hn⟩ := Json.Record.get?_of_optional htype
    obtain ⟨rfl, -⟩ := Json.below?_eq_some_iff.mp hn
    refine ⟨n, hscope, ?_⟩
    rw [Json.Record.text, hj]
    rfl

/-- A key that is not blank decides. -/
theorem ofKey?_of_resolve {key : String} (hkey : t.key = some key)
    (hblank : Text.isAllBlank key = false) (h : t.resolve = .ok resource) :
    Resource.ofKey? key = some resource := by
  have hfilter : (t.key.filter fun k => !Text.isAllBlank k) = some key := by
    rw [hkey, Option.filter_eq_some_iff, hblank]
    exact ⟨rfl, rfl⟩
  rw [resolve, hfilter] at h
  dsimp only at h
  split at h
  · rename_i hr
    cases h
    exact hr
  · cases h

end Target

namespace RawRule

/-- What a document is recognised by that has no id. -/
inductive Recognised (raw : RawRule) (resource : Resource) : Prop where
  /-- An array has no members. -/
  | array (items : List Json) (document : raw.document = .arr items)
  /-- By the key of its resource, be it blank or not. -/
  | keyed (key : String) (member : raw.document.get? "resourceId" = some (.str key))
      (recognised : documentKey raw.document = "resource:" ++ key)
      (decides : Text.isAllBlank key = false → Resource.ofKey? key = some resource)
  /-- By its type and its names. -/
  | named (t : Target) (n : Nat) (app service path : String)
      (member : ∀ key, raw.document.get? "resourceId" ≠ some (.str key))
      (recognised : documentKey raw.document = namesKey n.repr app service path)
      (key : t.key = none) (scope : t.scope = raw.kind.scopeOf? n)
      (text : t.IsWritten app service path) (resolve : t.resolve = .ok resource)

variable {raw raw' : RawRule} {a b : Resource}

theorem IsUnnumbered.recognised (h : raw.IsUnnumbered a) : raw.Recognised a := by
  obtain ⟨r, t, hr, hid, ht, hresolve⟩ := h.exists_target
  cases hdocument : raw.document with
  | arr items => exact .array items hdocument
  | obj members =>
    rw [hdocument] at hr
    -- the key is made from members of the document, and the rule from fields of its record
    have hown : ∀ {name}, Json.Record.IsOwn raw.kind.fields name →
        (Json.obj members).get? name = r.get? name := fun h =>
      (Json.Record.get?_eq_lookup hr h).symm
    have hidMember : (Json.obj members).get? "id" = none ∨
        (Json.obj members).get? "id" = some .null := by
      rw [hown raw.kind.isOwn_id]
      exact Json.Record.optional_eq_none_iff.mp hid
    have hresourceId := hown raw.kind.isOwn_resourceId
    cases hkey : t.key with
    | some key =>
      have hmember : (Json.obj members).get? "resourceId" = some (.str key) := by
        rw [hresourceId]
        exact Json.Record.get?_of_string (ht.key.trans (congrArg some hkey))
      refine .keyed key (hdocument ▸ hmember) ?_ fun hblank =>
        Target.ofKey?_of_resolve hkey hblank hresolve
      rw [hdocument, documentKey_of_key hidMember hmember]
    | none =>
      -- without a key in the document its type and its names are written down
      have hmember : ∀ key, (Json.obj members).get? "resourceId" ≠ some (.str key) := by
        intro key
        rw [hresourceId]
        rcases Json.Record.optional_eq_none_iff.mp (ht.key.trans (congrArg some hkey)) with hn | hn <;>
          rw [hn] <;> nofun
      obtain ⟨n, hscope, htype⟩ := ht.exists_number hkey hresolve
      refine .named t n (r.text "app") (r.text "service") (r.text "path") (hdocument ▸ hmember) ?_
        hkey hscope ht.isWritten hresolve
      rw [hdocument, documentKey_of_names hidMember hmember,
        Json.Record.memberText_eq_text (hown raw.kind.isOwn_type),
        Json.Record.memberText_eq_text (hown raw.kind.isOwn_app),
        Json.Record.memberText_eq_text (hown raw.kind.isOwn_path),
        Json.Record.text_of_hasAlias hr raw.kind.hasAlias_service, htype]
  | _ =>
    rw [hdocument] at hr
    cases hr

/-- Two documents are told apart by nothing: neither has members, or both give one blank key. -/
def IsIndistinct (raw raw' : RawRule) : Prop :=
  (raw.document.IsArray ∧ raw'.document.IsArray) ∨
    ∃ key, Text.isAllBlank key = true ∧ raw.document.get? "resourceId" = some (.str key) ∧
      raw'.document.get? "resourceId" = some (.str key)

theorem Recognised.eq_of_documentKey_eq (hkind : raw.kind = raw'.kind) (h : raw.Recognised a)
    (h' : raw'.Recognised b) (hkey : documentKey raw.document = documentKey raw'.document) :
    raw.IsIndistinct raw' ∨ a = b := by
  -- nine cases, one for each pair of forms; only a form and itself can give the same text
  cases h with
  | array items hdocument =>
    rw [hdocument, documentKey_arr] at hkey
    cases h' with
    | array items' hdocument' => exact .inl (.inl ⟨⟨items, hdocument⟩, ⟨items', hdocument'⟩⟩)
    | keyed key' _ hkey' _ => exact absurd (hkey.trans hkey') namesKey_ne_keyed
    | named t' n' app' service' path' _ hkey' _ _ htext' _ =>
      exact absurd (hkey.trans hkey') (namesKey_empty_ne htext')
  | keyed key hmember hdocumentKey hdecides =>
    rw [hdocumentKey] at hkey
    cases h' with
    | array items' hdocument' =>
      rw [hdocument', documentKey_arr] at hkey
      exact absurd hkey.symm namesKey_ne_keyed
    | keyed key' hmember' hdocumentKey' hdecides' =>
      rw [hdocumentKey', String.append_right_inj] at hkey
      subst hkey
      cases hblank : Text.isAllBlank key with
      | true => exact .inl (.inr ⟨key, hblank, hmember, hmember'⟩)
      | false => exact .inr (Option.some.inj ((hdecides hblank).symm.trans (hdecides' hblank)))
    | named t' n' app' service' path' _ hkey' _ _ _ _ =>
      exact absurd (hkey.trans hkey').symm namesKey_ne_keyed
  | named t n app service path _ hdocumentKey hnone hscope htext hresolve =>
    rw [hdocumentKey] at hkey
    cases h' with
    | array items' hdocument' =>
      rw [hdocument', documentKey_arr] at hkey
      exact absurd hkey.symm (namesKey_empty_ne htext)
    | keyed key' _ hkey' _ => exact absurd (hkey.trans hkey') namesKey_ne_keyed
    | named t' n' app' service' path' _ hkey' hnone' hscope' htext' hresolve' =>
      obtain ⟨hn, happ, hservice, hpath⟩ :=
        namesKey_inj (bar_notMem_repr n) (bar_notMem_repr n') htext htext' (hkey.trans hkey')
      -- equal numbers mean equal scopes only for documents of one kind
      have hsame : t.scope = t'.scope := by rw [hscope, hscope', ← hkind, Nat.repr_inj.mp hn]
      have ht : t = t' := by
        cases t
        cases t'
        rw [Target.mk.injEq]
        exact ⟨hnone.trans hnone'.symm, hsame, happ, hservice, hpath⟩
      rw [ht, hresolve'] at hresolve
      exact .inr (Except.ok.inj hresolve).symm

/-- A key of a resource is what a document is recognised by, also if it is blank. -/
theorem Recognised.documentKey_of_member (h : raw.Recognised a) {key : String}
    (hkey : raw.document.get? "resourceId" = some (.str key)) :
    documentKey raw.document = "resource:" ++ key := by
  cases h with
  | array items hdocument =>
    rw [hdocument] at hkey
    cases hkey
  | keyed key' hmember hdocumentKey _ =>
    rw [hmember] at hkey
    cases hkey
    exact hdocumentKey
  | named t n app service path hno => exact absurd hkey (hno key)

/-- **Rules for different resources are told apart**, if they have no ids, exactly if they are not
both written as arrays and do not both give the same blank key of a resource. -/
theorem documentKey_eq_iff (hkind : raw.kind = raw'.kind) (h : raw.IsUnnumbered a)
    (h' : raw'.IsUnnumbered b) (hne : a ≠ b) :
    documentKey raw.document = documentKey raw'.document ↔ raw.IsIndistinct raw' := by
  constructor
  · intro hkey
    exact (h.recognised.eq_of_documentKey_eq hkind h'.recognised hkey).resolve_right hne
  · rintro (⟨⟨items, hdocument⟩, ⟨items', hdocument'⟩⟩ | ⟨key, -, hkey, hkey'⟩)
    · rw [hdocument, hdocument', documentKey_arr, documentKey_arr]
    · rw [h.recognised.documentKey_of_member hkey, h'.recognised.documentKey_of_member hkey']

/-- A name with quotes and a bar in it does not run into the next, and arrays are all one. -/
theorem documentKey_eq_iff_quotes :
    let limit (app service : String) : RawRule :=
      ⟨.rateLimit, .obj [("app", .str app), ("path", .str "/"), ("service", .str service),
        ("type", .int 4)]⟩
    let listed (service : String) : RawRule :=
      ⟨.rateLimit, .arr [.null, .null, .int 3, .str service]⟩
    (limit "x\"|\"y" "z").IsUnnumbered (.api (some "x\"|\"y") "z" "/") ∧
      (limit "x" "y\"|\"z").IsUnnumbered (.api (some "x") "y\"|\"z" "/") ∧
      documentKey (limit "x\"|\"y" "z").document ≠ documentKey (limit "x" "y\"|\"z").document ∧
      documentKey (listed "a").document = documentKey (listed "b").document := by
  intro limit listed
  have h : (limit "x\"|\"y" "z").IsUnnumbered (.api (some "x\"|\"y") "z" "/") :=
    ⟨_, rfl, by decide, rfl⟩
  have h' : (limit "x" "y\"|\"z").IsUnnumbered (.api (some "x") "y\"|\"z" "/") :=
    ⟨_, rfl, by decide, rfl⟩
  have ha : (listed "a").IsUnnumbered (.service "a") := ⟨_, rfl, by decide, rfl⟩
  have hb : (listed "b").IsUnnumbered (.service "b") := ⟨_, rfl, by decide, rfl⟩
  have hlisted : (listed "a").IsIndistinct (listed "b") := .inl ⟨⟨_, rfl⟩, ⟨_, rfl⟩⟩
  have hlimit : ¬ (limit "x\"|\"y" "z").IsIndistinct (limit "x" "y\"|\"z") := by
    rintro (⟨⟨_, hitems⟩, -⟩ | ⟨_, -, hmember, -⟩)
    · cases hitems
    · cases hmember
  have hkind : (limit "x\"|\"y" "z").kind = (limit "x" "y\"|\"z").kind := rfl
  have hkind' : (listed "a").kind = (listed "b").kind := rfl
  exact ⟨h, h', fun hkey => hlimit ((documentKey_eq_iff hkind h h' (by decide)).mp hkey),
    (documentKey_eq_iff hkind' ha hb (by decide)).mpr hlisted⟩

/-- Two limits for different services that both give the empty key of a resource: they have one key
in a file, and when the first is taken out of the file nothing is reported, so that it stays in
force. -/
theorem blank_key_hides_removal :
    let limit (service : String) : RawRule :=
      ⟨.rateLimit, .obj [("qps", .int 10), ("resourceId", .str ""), ("service", .str service),
        ("type", .int 3)]⟩
    let first := "\x7b\"type\":3,\"resourceId\":\"\",\"service\":\"a\",\"qps\":10\x7d"
    let second := "\x7b\"type\":3,\"resourceId\":\"\",\"service\":\"b\",\"qps\":10\x7d"
    let loader : Loader Unit := {}
    let (loaded, source) :=
      ({} : FileSource).load (some ("\x7b\"rateLimits\":[" ++ first ++ "," ++ second ++ "]\x7d"))
    let before := (loader.applyAll (loaded.toOption.getD []) (.empty, ())).2.1
    let (report, _) := source.poll (some ("\x7b\"rateLimits\":[" ++ second ++ "]\x7d"))
    let after := (loader.applyAll (report.1 ++ report.2) (before, ())).2.1
    ((limit "a").IsUnnumbered (.service "a") ∧ (limit "b").IsUnnumbered (.service "b")) ∧
      documentKey (limit "a").document = documentKey (limit "b").document ∧
      (before.limits.get? (.service "a")).isSome ∧ report.1.length = 0 ∧ report.2.length = 0 ∧
      (after.limits.get? (.service "a")).isSome := by
  refine ⟨⟨⟨_, rfl, by decide, rfl⟩, ⟨_, rfl, by decide, rfl⟩⟩, ?_⟩
  decide +kernel

end RawRule

end Floodgate
