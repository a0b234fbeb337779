import Floodgate.Proofs.Rule.Batch

/-!
# What two readings of a rule file differ in

A file is well-formed if its documents are objects, if each puts a rule in force that has an id, and
if no two of one kind have the same id or the same resource. The documents of such a file are
recognised by their ids (`fileKey_eq_iff`), so what is reported after another reading can be said
without keys: the documents that are not repeated from the reading before, and the documents of the
reading before whose ids are no longer there, marked as deleted.
-/

set_option autoImplicit false

namespace Floodgate

/-! ## Recognising documents that have an id -/

/-- The value is an object. -/
def Json.IsObject (j : Json) : Prop := ∃ members, j = .obj members

instance (j : Json) : Decidable j.IsObject :=
  match j with
  | .obj members => isTrue ⟨members, rfl⟩
  | .null | .bool _ | .int _ | .real _ | .str _ | .arr _ | .unreadable =>
    isFalse fun h => nomatch h.choose_spec

namespace RawRule

variable {R : Type} [Rule R] [Documented R] [LawfulDocumented R] {raw raw' : RawRule}
  {rule rule' : R} {i i' : Int} {resource resource' : Resource}

theorem Describes.kind_eq (h : raw.Describes rule) : raw.kind = Documented.kind R :=
  (LawfulDocumented.kind_iff h).mpr
    (Option.isSome_iff_exists.mpr ⟨_, LawfulDocumented.update?_eq_some_iff.mpr rfl⟩)

theorem Describes.unique (h : raw.Describes rule) (h' : raw.Describes rule') : rule = rule' := by
  have he : Documented.change (.upsert rule) = Documented.change (.upsert rule') :=
    Except.ok.inj (h.symm.trans h')
  have hu := LawfulDocumented.update?_eq_some_iff.mpr he
  rw [LawfulDocumented.update?_eq_some_iff.mpr rfl] at hu
  cases hu
  rfl

theorem Describes.beq_self (h : raw.Describes rule) : (rule == rule) = true :=
  LawfulDocumented.isProper (isNumeric_of_parse h)

theorem Describes.subject? (h : raw.Describes rule) :
    raw.subject? = (Rule.id rule).map fun i => (i, Rule.resource rule) := by
  rw [RawRule.subject?, show raw.parse = _ from h]
  exact LawfulDocumented.subject?_upsert rule

/-- A document of a kind that has a subject puts a rule of that kind in force. Deletions have no
subject. -/
theorem exists_describes (hkind : raw.kind = Documented.kind R)
    (h : raw.subject? = some (i, resource)) :
    ∃ rule : R, raw.Describes rule ∧ Rule.id rule = some i ∧ Rule.resource rule = resource := by
  unfold RawRule.subject? at h
  split at h
  · rename_i c hc
    obtain ⟨u, hu⟩ := Option.isSome_iff_exists.mp ((LawfulDocumented.kind_iff (R := R) hc).mp hkind)
    obtain rfl := LawfulDocumented.update?_eq_some_iff.mp hu
    cases u with
    | upsert rule =>
      rw [LawfulDocumented.subject?_upsert] at h
      obtain ⟨i', hi, e⟩ := Option.map_eq_some_iff.mp h
      cases e
      exact ⟨rule, hc, hi, rfl⟩
    | delete id resource =>
      rw [LawfulDocumented.subject?_delete] at h
      cases h
  · cases h

/-- A document with an id is recognised by its id, in decimal digits. The name of its resource is
not looked at. -/
theorem Describes.fileKey (h : raw.Describes rule) (hobj : raw.document.IsObject)
    (hi : Rule.id rule = some i) : raw.fileKey = (raw.kind, "id:" ++ toString i) := by
  obtain ⟨members, hm⟩ := hobj
  have hlookup := LawfulDocumented.lookup_id hm h hi
  have hget : raw.document.get? "id" = some (.int i) := by rw [hm]; exact hlookup
  rw [RawRule.fileKey, documentKey, hget]
  rfl

theorem fileKey_of_subject? (hobj : raw.document.IsObject) (h : raw.subject? = some (i, resource)) :
    raw.fileKey = (raw.kind, "id:" ++ toString i) := by
  cases hkind : raw.kind with
  | rateLimit =>
    obtain ⟨rule, hrule, hi, -⟩ := exists_describes (R := LimitRule) hkind h
    exact hkind ▸ hrule.fileKey hobj hi
  | degrade =>
    obtain ⟨rule, hrule, hi, -⟩ := exists_describes (R := DegradeRule) hkind h
    exact hkind ▸ hrule.fileKey hobj hi

/-- Two documents are recognised as one exactly if they are of one kind and have one id. So a
document whose id has changed is taken for another one, even where its rule is the same. -/
theorem fileKey_eq_iff (hobj : raw.document.IsObject) (h : raw.subject? = some (i, resource))
    (hobj' : raw'.document.IsObject) (h' : raw'.subject? = some (i', resource')) :
    raw.fileKey = raw'.fileKey ↔ raw.kind = raw'.kind ∧ i = i' := by
  rw [fileKey_of_subject? hobj h, fileKey_of_subject? hobj' h', Prod.mk.injEq,
    String.append_right_inj, Int.toString_eq_repr, Int.toString_eq_repr, Int.repr_inj]

end RawRule

/-! ## Well-formed files -/

/-- The documents of a file are objects that put rules in force; no two rules of one kind have the
same id or the same resource. -/
structure RuleFile.WellFormed (raws : List RawRule) : Prop where
  object : ∀ raw ∈ raws, raw.document.IsObject
  subject : ∀ raw ∈ raws, raw.subject?.isSome
  ids : (raws.map fun raw => (raw.kind, raw.subject?.map Prod.fst)).Nodup
  resources : (raws.map fun raw => (raw.kind, raw.subject?.map Prod.snd)).Nodup

instance (raws : List RawRule) : Decidable (RuleFile.WellFormed raws) :=
  decidable_of_iff
    ((∀ raw ∈ raws, raw.document.IsObject) ∧ (∀ raw ∈ raws, raw.subject?.isSome) ∧
      (raws.map fun raw => (raw.kind, raw.subject?.map Prod.fst)).Nodup ∧
      (raws.map fun raw => (raw.kind, raw.subject?.map Prod.snd)).Nodup)
    ⟨fun ⟨h₁, h₂, h₃, h₄⟩ => ⟨h₁, h₂, h₃, h₄⟩, fun h => ⟨h.object, h.subject, h.ids, h.resources⟩⟩

namespace RuleFile

/-- Where all items of a list were read, each result is that of some item. -/
theorem exists_of_mem_mapM {α β : Type} {f : α → Option β} {xs : List α} {ys : List β}
    (h : xs.mapM f = some ys) {y : β} (hy : y ∈ ys) : ∃ x, f x = some y := by
  induction xs generalizing ys with
  | nil =>
    cases h
    cases hy
  | cons x xs ih =>
    simp only [List.mapM_cons, Option.bind_eq_bind, Option.bind_eq_some_iff, Option.pure_def,
      Option.some.injEq] at h
    obtain ⟨z, hz, zs, hzs, rfl⟩ := h
    rcases List.mem_cons.mp hy with rfl | hy
    · exact ⟨x, hz⟩
    · exact ih hzs hy

/-- The items of a list in a file are values in canonical form. -/
theorem exists_value?_of_mem {r : Json.Record} {name : String} {documents : List Json}
    (h : r.defaulted name [] documents? = some documents) {document : Json}
    (hd : document ∈ documents) : ∃ j : Json, j.value? 2 = some document := by
  unfold Json.Record.defaulted at h
  split at h
  · cases h
    cases hd
  · rename_i j _
    cases j with
    | arr items => exact exists_of_mem_mapM h hd
    | _ => cases h

/-- The members of a document in a file are sorted. They are put in order when the file is read,
whatever order they were written in. -/
theorem sorted_of_read? {text : String} {raws : List RawRule} (h : read? text = some raws)
    {raw : RawRule} (hraw : raw ∈ raws) {members : List (String × Json)}
    (hm : raw.document = .obj members) : Json.IsSorted members := by
  simp only [read?, Option.bind_eq_bind, Option.bind_eq_some_iff, Option.pure_def,
    Option.some.injEq] at h
  obtain ⟨_, -, r, -, limits, hlimits, degrades, hdegrades, rfl⟩ := h
  obtain ⟨j, hj⟩ : ∃ j : Json, j.value? 2 = some raw.document := by
    rcases List.mem_append.mp hraw with hraw | hraw <;>
      obtain ⟨document, hd, rfl⟩ := List.mem_map.mp hraw
    · exact exists_value?_of_mem hlimits hd
    · exact exists_value?_of_mem hdegrades hd
  rw [hm] at hj
  exact Json.value?_sorted hj

end RuleFile

namespace RuleFile.WellFormed

variable {raws : List RawRule} {raw raw' : RawRule}

theorem exists_subject (h : WellFormed raws) (hraw : raw ∈ raws) :
    ∃ i resource, raw.subject? = some (i, resource) := by
  obtain ⟨⟨i, resource⟩, hs⟩ := Option.isSome_iff_exists.mp (h.subject raw hraw)
  exact ⟨i, resource, hs⟩

/-- No two documents of a file have the same key. -/
theorem fileKey_injective (h : WellFormed raws) (hraw : raw ∈ raws) (hraw' : raw' ∈ raws)
    (hkey : raw.fileKey = raw'.fileKey) : raw = raw' := by
  obtain ⟨i, resource, hs⟩ := h.exists_subject hraw
  obtain ⟨i', resource', hs'⟩ := h.exists_subject hraw'
  obtain ⟨hkind, rfl⟩ :=
    (RawRule.fileKey_eq_iff (h.object _ hraw) hs (h.object _ hraw') hs').mp hkey
  exact List.inj_on_of_nodup_map h.ids hraw hraw' (by rw [hkind, hs, hs']; rfl)

theorem nodup_fileKeys (h : WellFormed raws) : (raws.map RawRule.fileKey).Nodup :=
  (List.nodup_map_iff_inj_on (List.Nodup.of_map _ h.ids)).mpr
    fun _ hraw _ hraw' hkey => h.fileKey_injective hraw hraw' hkey

theorem resource_injective (h : WellFormed raws) (hraw : raw ∈ raws) (hraw' : raw' ∈ raws)
    (hkind : raw.kind = raw'.kind)
    (hres : raw.subject?.map Prod.snd = raw'.subject?.map Prod.snd) : raw = raw' :=
  List.inj_on_of_nodup_map h.resources hraw hraw' (by rw [hkind, hres])

end RuleFile.WellFormed

/-! ## The rules of well-formed files -/

namespace RuleFile.WellFormed

variable {R : Type} [Rule R] [Documented R] [LawfulDocumented R] {raws raws' : List RawRule}
  {raw raw' : RawRule} {rule rule' : R}

/-- A document of a kind puts a rule of that kind in force, which has an id. -/
theorem exists_rule (h : WellFormed raws) (hraw : raw ∈ raws)
    (hkind : raw.kind = Documented.kind R) : ∃ rule : R, raw.Describes rule := by
  obtain ⟨i, resource, hs⟩ := h.exists_subject hraw
  obtain ⟨rule, hrule, -⟩ := RawRule.exists_describes hkind hs
  exact ⟨rule, hrule⟩

theorem subject?_eq (h : WellFormed raws) (hraw : raw ∈ raws) (hd : raw.Describes rule) :
    ∃ i, Rule.id rule = some i ∧ raw.subject? = some (i, Rule.resource rule) := by
  obtain ⟨i, resource, hs⟩ := h.exists_subject hraw
  have hsubject := hd.subject?
  rw [hs] at hsubject
  obtain ⟨i', hi, e⟩ := Option.map_eq_some_iff.mp hsubject.symm
  cases e
  exact ⟨i, hi, hs⟩

theorem fileKey_eq_iff (h : WellFormed raws) (hraw : raw ∈ raws) (hd : raw.Describes rule)
    (h' : WellFormed raws') (hraw' : raw' ∈ raws') (hd' : raw'.Describes rule') :
    raw.fileKey = raw'.fileKey ↔ Rule.id rule = Rule.id rule' := by
  obtain ⟨i, hi, hs⟩ := h.subject?_eq hraw hd
  obtain ⟨i', hi', hs'⟩ := h'.subject?_eq hraw' hd'
  rw [RawRule.fileKey_eq_iff (h.object _ hraw) hs (h'.object _ hraw') hs', hd.kind_eq, hd'.kind_eq,
    hi, hi', Option.some.injEq, and_iff_right rfl]

theorem eq_of_id (h : WellFormed raws) (hraw : raw ∈ raws) (hraw' : raw' ∈ raws)
    (hd : raw.Describes rule) (hd' : raw'.Describes rule') (e : Rule.id rule = Rule.id rule') :
    raw = raw' :=
  h.fileKey_injective hraw hraw' ((h.fileKey_eq_iff hraw hd h hraw' hd').mpr e)

theorem eq_of_resource (h : WellFormed raws) (hraw : raw ∈ raws) (hraw' : raw' ∈ raws)
    (hd : raw.Describes rule) (hd' : raw'.Describes rule')
    (e : Rule.resource rule = Rule.resource rule') : raw = raw' := by
  obtain ⟨i, -, hs⟩ := h.subject?_eq hraw hd
  obtain ⟨i', -, hs'⟩ := h.subject?_eq hraw' hd'
  exact h.resource_injective hraw hraw' (hd.kind_eq.trans hd'.kind_eq.symm)
    (by rw [hs, hs', ← e]; rfl)

/-- Rules of one file compete only with themselves. -/
theorem eq_of_competes (h : WellFormed raws) (hraw : raw ∈ raws) (hraw' : raw' ∈ raws)
    (hd : raw.Describes rule) (hd' : raw'.Describes rule') (hc : Rule.competes rule rule' = true) :
    raw = raw' := by
  rw [Rule.competes, Bool.or_eq_true, decide_eq_true_eq] at hc
  rcases hc with hres | hid
  · exact h.eq_of_resource hraw hraw' hd hd' hres
  · obtain ⟨i', hi', -⟩ := h.subject?_eq hraw' hd'
    rw [hi', Rule.hasId_some, decide_eq_true_eq] at hid
    exact h.eq_of_id hraw hraw' hd hd' (hid.trans hi'.symm)

/-- The rules of a file, or of part of it, do not compete. So it makes no difference in which order
its documents are applied. -/
theorem pairwise_rulesOf (h : WellFormed raws) {part : List RawRule} (hpart : part.Sublist raws) :
    (rulesOf (R := R) part).Pairwise fun a b => Rule.competes a b = false := by
  have hnodup : part.Pairwise (· ≠ ·) := (List.Nodup.of_map _ h.ids).sublist hpart
  rw [rulesOf, List.pairwise_filterMap]
  refine hnodup.imp_of_mem fun {a b} ha hb hne x hx y hy => ?_
  rw [RawRule.rule?_eq_some_iff] at hx hy
  exact Bool.eq_false_iff.mpr fun hc =>
    hne (h.eq_of_competes (hpart.subset ha) (hpart.subset hb) hx hy hc)

/-- The documents of a file ask for nothing but to put their rules in force. -/
theorem filterMap_update? (h : WellFormed raws) {part : List RawRule} (hpart : part.Sublist raws) :
    part.filterMap (RawRule.update? (R := R)) = (rulesOf part).map .upsert := by
  rw [rulesOf, List.map_filterMap]
  refine List.filterMap_congr fun raw hraw => ?_
  rw [RawRule.rule?]
  cases hu : raw.update? (R := R) with
  | none => rfl
  | some u =>
    cases u with
    | upsert rule => rfl
    | delete id resource =>
      have hnone : raw.subject? = none := by
        unfold RawRule.subject?
        rw [RawRule.update?_eq_some_iff.mp hu]
        exact LawfulDocumented.subject?_delete id resource
      have hsome := h.subject raw (hpart.subset hraw)
      rw [hnone] at hsome
      cases hsome

end RuleFile.WellFormed

/-! ## Comparing two readings -/

namespace RuleFile

variable {previous current : List RawRule} {raw old : RawRule}

/-- The documents of a reading that are gone in the next. -/
def gone (previous current : List RawRule) : List RawRule :=
  previous.filter fun old => current.all fun now => decide (now.fileKey ≠ old.fileKey)

theorem mem_gone_iff :
    old ∈ gone previous current ↔ old ∈ previous ∧ ∀ now ∈ current, now.fileKey ≠ old.fileKey := by
  simp only [gone, List.mem_filter, List.all_eq_true, decide_eq_true_eq]

/-- The document of a reading that a document repeats. -/
def repeated? (previous : List RawRule) (raw : RawRule) : Option RawRule :=
  previous.find? fun old => decide (old.fileKey = raw.fileKey) && old.document == raw.document

theorem repeated?_eq_some (h : repeated? previous raw = some old) :
    old ∈ previous ∧ old.fileKey = raw.fileKey ∧ (old.document == raw.document) = true := by
  have hfound : (decide (old.fileKey = raw.fileKey) && old.document == raw.document) = true :=
    List.find?_some (p := fun old : RawRule =>
      decide (old.fileKey = raw.fileKey) && old.document == raw.document) h
  rw [Bool.and_eq_true, decide_eq_true_eq] at hfound
  exact ⟨List.mem_of_find?_eq_some h, hfound⟩

theorem repeated?_isSome_iff : (repeated? previous raw).isSome = true ↔
    ∃ old ∈ previous, old.fileKey = raw.fileKey ∧ (old.document == raw.document) = true := by
  rw [repeated?, List.find?_isSome]
  simp only [Bool.and_eq_true, decide_eq_true_eq]

end RuleFile

namespace KnownDocuments

variable {raws current : List RawRule} {raw : RawRule}

/-- Of documents with one key the last is remembered. -/
theorem get?_foldl_insert (raws : List RawRule) (known : KnownDocuments)
    (key : RuleKind × String) :
    (raws.foldl (fun known raw => known.insert raw.fileKey raw.document) known).get? key =
      ((raws.reverse.find? fun raw => raw.fileKey = key).map RawRule.document).orElse
        fun _ => known.get? key := by
  induction raws generalizing known with
  | nil => rfl
  | cons raw rest ih =>
    rw [List.foldl_cons, ih, List.reverse_cons, List.find?_append]
    cases rest.reverse.find? fun raw => raw.fileKey = key with
    | some found => rfl
    | none =>
      by_cases e : raw.fileKey = key
      · simp [e]
      · simp [e, Ne.symm e]

theorem contains_ofList_iff (raws : List RawRule) (key : RuleKind × String) :
    (ofList raws).contains key = true ↔ ∃ raw ∈ raws, raw.fileKey = key := by
  rw [Table.contains, ofList, get?_foldl_insert]
  cases hf : raws.reverse.find? fun raw => raw.fileKey = key with
  | some raw =>
    have hmem : raw ∈ raws := List.mem_reverse.mp (List.mem_of_find?_eq_some hf)
    exact iff_of_true rfl ⟨raw, hmem, by simpa using List.find?_some hf⟩
  | none =>
    refine iff_of_false (by simp) fun ⟨raw, hraw, hkey⟩ => ?_
    exact List.find?_eq_none.mp hf raw (List.mem_reverse.mpr hraw) (decide_eq_true hkey)

/-- Of documents with different keys each is found under its key. None of them is forgotten for
another. -/
theorem get?_ofList_iff (h : (raws.map RawRule.fileKey).Nodup) (key : RuleKind × String)
    (document : Json) : (ofList raws).get? key = some document ↔
      ∃ raw ∈ raws, raw.fileKey = key ∧ raw.document = document := by
  rw [ofList, get?_foldl_insert]
  cases hf : raws.reverse.find? fun raw => raw.fileKey = key with
  | some raw =>
    have hmem : raw ∈ raws := List.mem_reverse.mp (List.mem_of_find?_eq_some hf)
    have hkey : raw.fileKey = key := by simpa using List.find?_some hf
    refine ⟨fun e => ⟨raw, hmem, hkey, Option.some.inj e⟩, ?_⟩
    rintro ⟨raw', hmem', hkey', rfl⟩
    rw [List.inj_on_of_nodup_map h hmem' hmem (hkey'.trans hkey.symm)]
    rfl
  | none =>
    refine iff_of_false (fun e => by cases e) fun ⟨raw, hraw, hkey, _⟩ => ?_
    exact List.find?_eq_none.mp hf raw (List.mem_reverse.mpr hraw) (decide_eq_true hkey)

/-- A document is known if it is repeated from the reading before. Keys must differ for that:
otherwise an earlier document of a key is forgotten as soon as a later one is read. -/
theorem isKnown_ofList (h : (raws.map RawRule.fileKey).Nodup) (raw : RawRule) :
    (ofList raws).isKnown raw = (RuleFile.repeated? raws raw).isSome := by
  rw [Bool.eq_iff_iff, RuleFile.repeated?_isSome_iff, isKnown, Option.any_eq_true]
  constructor
  · rintro ⟨document, hd, hsame⟩
    obtain ⟨old, hold, hkey, rfl⟩ := (get?_ofList_iff h _ _).mp hd
    exact ⟨old, hold, hkey, hsame⟩
  · rintro ⟨old, hold, hkey, hsame⟩
    exact ⟨old.document, (get?_ofList_iff h _ _).mpr ⟨old, hold, hkey, rfl⟩, hsame⟩

/-- **What is reported as changed**: the documents that repeat none of the reading before. -/
theorem mem_changed_iff (h : (raws.map RawRule.fileKey).Nodup) :
    raw ∈ (ofList raws).changed current ↔ raw ∈ current ∧ RuleFile.repeated? raws raw = none := by
  rw [changed, List.mem_filter, isKnown_ofList h, Bool.not_eq_true', Option.isSome_eq_false_iff,
    Option.isNone_iff_eq_none]

/-- **What is reported as removed**: the documents that are gone, marked as deleted. The mark is set
in the document itself, which keeps its id and its resource. -/
theorem mem_removed_iff (h : (raws.map RawRule.fileKey).Nodup) :
    raw ∈ (ofList raws).removed current ↔
      ∃ old ∈ RuleFile.gone raws current, raw = old.markDeleted := by
  have hentry : ∀ key document, (key, document) ∈
      ((ofList raws).filter fun key _ => !(ofList current).contains key).entries ↔
        ∃ old ∈ RuleFile.gone raws current, old.fileKey = key ∧ old.document = document := by
    intro key document
    rw [Table.mem_entries_iff, Table.get?_filter, Option.filter_eq_some_iff, get?_ofList_iff h,
      Bool.not_eq_true', ← Bool.not_eq_true, contains_ofList_iff]
    constructor
    · rintro ⟨⟨old, hold, rfl, hd⟩, hno⟩
      exact ⟨old, RuleFile.mem_gone_iff.mpr ⟨hold, fun now hnow e => hno ⟨now, hnow, e⟩⟩, rfl, hd⟩
    · rintro ⟨old, hgone, rfl, hd⟩
      obtain ⟨hold, hno⟩ := RuleFile.mem_gone_iff.mp hgone
      exact ⟨⟨old, hold, rfl, hd⟩, fun ⟨now, hnow, e⟩ => hno now hnow e⟩
  rw [removed, List.mem_map]
  constructor
  · rintro ⟨⟨key, document⟩, he, rfl⟩
    obtain ⟨old, hgone, rfl, rfl⟩ := (hentry _ _).mp he
    exact ⟨old, hgone, rfl⟩
  · rintro ⟨old, hgone, rfl⟩
    exact ⟨(old.fileKey, old.document), (hentry _ _).mpr ⟨old, hgone, rfl, rfl⟩, rfl⟩

end KnownDocuments

end Floodgate
