import Floodgate.Proofs.Source.Polling

/-!
# What is reported is a patch

Where no two documents of a list have the same key, replacing the known documents by the list reports
a patch (`KnownDocuments.IsPatch`): the documents whose key is new or whose document differs, in the
order of the list, and one deletion for each key that is gone. Each key is reported once and only if
what is known of it changes, so no smaller report would do; and carrying out the report on the old
documents makes the new ones of them (`KnownDocuments.replaceWith_isPatch`).

Of keys that are gone only the documents are reported. Their keys can be read off them, as long as
each was known by the key of its own (`KnownDocuments.IsKeyed`), for the mark of a deletion is no
part of a key. So it is after every reading.
-/

set_option autoImplicit false

namespace Floodgate

/-! ## Deletions -/

/-- A document is recognised by its members other than the mark of a deletion. -/
theorem documentKey_congr {document document' : Json}
    (h : ∀ name, name ≠ "isDeleted" → document'.get? name = document.get? name) :
    documentKey document' = documentKey document := by
  have hid := h "id" (by decide)
  have hresourceId := h "resourceId" (by decide)
  have hservice := h "service" (by decide)
  have hresource := h "resource" (by decide)
  have htype := h "type" (by decide)
  have happ := h "app" (by decide)
  have hpath := h "path" (by decide)
  simp only [documentKey, memberText, hid, hresourceId, hservice, hresource, htype, happ, hpath]

namespace KnownDocuments

/-- A rule that asks for the deletion of what is known by a key: the known document, with its flag of
a deletion set to 1. -/
structure IsDeletion (known : KnownDocuments) (key : RuleKind × String) (raw : RawRule) : Prop where
  kind : raw.kind = key.1
  flag : raw.document.get? "isDeleted" = some (.int 1)
  document : ∃ document, known.get? key = some document ∧
    raw.document = document.set "isDeleted" (.int 1) ∧
    ∀ name, name ≠ "isDeleted" → raw.document.get? name = document.get? name

/-- Each document is known by its own key. -/
def IsKeyed (known : KnownDocuments) : Prop :=
  ∀ key document, known.get? key = some document → documentKey document = key.2

/-- The documents after changes and deletions. -/
def replay (known : KnownDocuments) (changed : List RawRule) (gone : List (RuleKind × String)) :
    KnownDocuments :=
  gone.foldl Table.erase
    (changed.foldl (fun known raw => known.insert raw.fileKey raw.document) known)

/-- What has to be reported where a list replaces the known documents. Documents are compared with
`==`, as the source does. -/
structure IsPatch (known : KnownDocuments) (raws changed : List RawRule)
    (gone : List (RuleKind × String)) (removed : List RawRule) (next : KnownDocuments) : Prop where
  /-- Changes are in the order of the list. -/
  sublist : changed.Sublist raws
  mem_changed : ∀ raw, raw ∈ changed ↔ raw ∈ raws ∧
    ∀ document ∈ known.get? raw.fileKey, (document == raw.document) = false
  mem_gone : ∀ key, key ∈ gone ↔ known.contains key = true ∧ ∀ raw ∈ raws, raw.fileKey ≠ key
  /-- One deletion for each key that is gone. -/
  deletions : List.Forall₂ known.IsDeletion gone removed
  /-- The list is what is known. -/
  get?_next : ∀ key document, next.get? key = some document ↔
    ∃ raw ∈ raws, raw.fileKey = key ∧ raw.document = document
  /-- No key is reported twice. -/
  nodup : (changed.map RawRule.fileKey ++ gone).Nodup
  /-- A key is reported exactly if what is known of it changes. -/
  minimal : ∀ key, key ∈ changed.map RawRule.fileKey ++ gone ↔
    (known.get? key == next.get? key) = false
  /-- The report leads from the old documents to the new ones. -/
  replay : ∀ key, ((known.replay changed gone).get? key == next.get? key) = true
  /-- The keys of deletions can be read off the deletions. -/
  keys_removed : known.IsKeyed → removed.map RawRule.fileKey = gone
  isKeyed : next.IsKeyed

variable {known : KnownDocuments} {raws : List RawRule} {raw : RawRule} {key : RuleKind × String}

theorem isDeletion_set {document : Json} (hget : known.get? key = some document)
    (hobject : document.IsObject) :
    known.IsDeletion key { kind := key.1, document := document.set "isDeleted" (.int 1) } where
  kind := rfl
  flag := by rw [Json.get?_set hobject, if_pos rfl]
  document := ⟨document, hget, rfl, fun name hname => by rw [Json.get?_set hobject, if_neg hname]⟩

/-- A deletion has the key of what it deletes. -/
theorem IsDeletion.fileKey (h : known.IsDeletion key raw) (hkeyed : known.IsKeyed) :
    raw.fileKey = key := by
  obtain ⟨document, hget, -, hsame⟩ := h.document
  rw [RawRule.fileKey, h.kind, documentKey_congr hsame, hkeyed key document hget]

/-! ## The two parts of a report -/

/-- The keys that are known and not in a list. -/
def gone (known : KnownDocuments) (raws : List RawRule) : List (RuleKind × String) :=
  (known.filter fun key _ => !(ofList raws).contains key).keys

theorem mem_gone_iff : key ∈ known.gone raws ↔
    known.contains key = true ∧ ∀ raw ∈ raws, raw.fileKey ≠ key := by
  have hlisted : (ofList raws).contains key = false ↔ ∀ raw ∈ raws, raw.fileKey ≠ key := by
    rw [Bool.eq_false_iff, ne_eq, contains_ofList_iff]
    simp only [not_exists, not_and, ne_eq]
  rw [gone, Table.mem_keys_iff, Table.get?_filter, ← hlisted]
  generalize (ofList raws).contains key = listed
  rw [Table.contains]
  cases known.get? key <;> cases listed <;> simp [Option.filter]

theorem forall₂_removed (hobjects : ∀ key document, known.get? key = some document →
    document.IsObject) (raws : List RawRule) :
    List.Forall₂ known.IsDeletion (known.gone raws) (known.removed raws) := by
  rw [gone, Table.keys, removed, List.forall₂_map_left_iff, List.forall₂_map_right_iff,
    List.forall₂_same]
  rintro ⟨key, document⟩ hmem
  rw [Table.mem_entries_iff, Table.get?_filter, Option.filter_eq_some_iff] at hmem
  exact isDeletion_set hmem.1 (hobjects key document hmem.1)

theorem mem_changed : raw ∈ known.changed raws ↔
    raw ∈ raws ∧ ∀ document ∈ known.get? raw.fileKey, (document == raw.document) = false := by
  rw [changed, List.mem_filter, isKnown]
  cases known.get? raw.fileKey <;> simp

section Distinct

variable (hdistinct : (raws.map RawRule.fileKey).Nodup)
include hdistinct

/-- No key is reported twice. -/
theorem nodup_reported (known : KnownDocuments) :
    ((known.changed raws).map RawRule.fileKey ++ known.gone raws).Nodup := by
  refine List.nodup_append.mpr ⟨hdistinct.sublist (List.filter_sublist.map _),
    (known.filter _).nodup, ?_⟩
  rintro _ hchanged key hgone rfl
  obtain ⟨raw, hraw, hkey⟩ := List.mem_map.mp hchanged
  exact (mem_gone_iff.mp hgone).2 raw (mem_changed.mp hraw).1 hkey

theorem get?_ofList_of_mem (hraw : raw ∈ raws) :
    (ofList raws).get? raw.fileKey = some raw.document :=
  (get?_ofList_iff hdistinct _ _).mpr ⟨raw, hraw, rfl, rfl⟩

theorem get?_ofList_eq_none (hno : ∀ raw ∈ raws, raw.fileKey ≠ key) :
    (ofList raws).get? key = none := by
  refine Option.eq_none_iff_forall_ne_some.mpr fun document hget => ?_
  obtain ⟨raw, hraw, hkey, -⟩ := (get?_ofList_iff hdistinct key document).mp hget
  exact hno raw hraw hkey

/-- **A key is reported exactly if what is known of it changes.** Its document is gone, or it is
new, or it is another one than before. -/
theorem mem_reported_iff (known : KnownDocuments) (key : RuleKind × String) :
    key ∈ (known.changed raws).map RawRule.fileKey ++ known.gone raws ↔
      (known.get? key == (ofList raws).get? key) = false := by
  rw [List.mem_append]
  by_cases hlisted : ∃ raw ∈ raws, raw.fileKey = key
  · -- a key of the list: it is not gone, and its document decides
    obtain ⟨raw, hraw, rfl⟩ := hlisted
    have hchanged : raw.fileKey ∈ (known.changed raws).map RawRule.fileKey ↔
        raw ∈ known.changed raws := by
      refine ⟨fun hmem => ?_, List.mem_map_of_mem⟩
      obtain ⟨raw', hraw', hkey⟩ := List.mem_map.mp hmem
      rwa [← List.inj_on_of_nodup_map hdistinct (mem_changed.mp hraw').1 hraw hkey]
    have hgone : raw.fileKey ∉ known.gone raws := fun hmem => (mem_gone_iff.mp hmem).2 raw hraw rfl
    rw [or_iff_left hgone, hchanged, mem_changed, and_iff_right hraw,
      get?_ofList_of_mem hdistinct hraw]
    cases known.get? raw.fileKey with
    | none => exact iff_of_true nofun rfl
    | some document => exact ⟨fun h => h document rfl, fun h d hd => Option.some.inj hd ▸ h⟩
  · -- a key that is not in the list is reported if it was known
    have hno : ∀ raw ∈ raws, raw.fileKey ≠ key := fun raw hraw hkey => hlisted ⟨raw, hraw, hkey⟩
    have hchanged : key ∉ (known.changed raws).map RawRule.fileKey := fun hmem => by
      obtain ⟨raw, hraw, hkey⟩ := List.mem_map.mp hmem
      exact hno raw (mem_changed.mp hraw).1 hkey
    rw [or_iff_right hchanged, mem_gone_iff, and_iff_left hno, get?_ofList_eq_none hdistinct hno,
      Table.contains]
    cases known.get? key with
    | none => exact iff_of_false (by simp) (by simp)
    | some document => exact iff_of_true rfl rfl

end Distinct

/-! ## Carrying out a report -/

theorem get?_foldl_erase (gone : List (RuleKind × String)) (known : KnownDocuments)
    (key : RuleKind × String) :
    (gone.foldl Table.erase known).get? key = if key ∈ gone then none else known.get? key := by
  induction gone generalizing known with
  | nil => simp
  | cons first gone ih =>
    rw [List.foldl_cons, ih, Table.get?_erase]
    by_cases hfirst : key = first
    · simp [hfirst]
    · simp [hfirst]

/-- A report leads from the old documents to the new ones. Whoever knew the same as the source
before it does so afterwards. -/
theorem get?_replay (hdistinct : (raws.map RawRule.fileKey).Nodup) (known : KnownDocuments)
    (key : RuleKind × String) :
    ((known.replay (known.changed raws) (known.gone raws)).get? key ==
      (ofList raws).get? key) = true := by
  rw [replay, get?_foldl_erase, get?_foldl_insert]
  by_cases hgone : key ∈ known.gone raws
  · rw [if_pos hgone, get?_ofList_eq_none hdistinct (mem_gone_iff.mp hgone).2]
    rfl
  · rw [if_neg hgone]
    cases hfound : (known.changed raws).reverse.find? fun raw => raw.fileKey = key with
    | some raw =>
      have hraw := List.mem_reverse.mp (List.mem_of_find?_eq_some hfound)
      have hkey : raw.fileKey = key := by simpa using List.find?_some hfound
      rw [← hkey, get?_ofList_of_mem hdistinct (mem_changed.mp hraw).1]
      exact BEq.rfl
    | none =>
      -- the key is not reported, so what is known of it stays
      have hchanged : key ∉ (known.changed raws).map RawRule.fileKey := fun hmem => by
        obtain ⟨raw, hraw, hkey⟩ := List.mem_map.mp hmem
        exact List.find?_eq_none.mp hfound raw (List.mem_reverse.mpr hraw) (decide_eq_true hkey)
      have hsame := (not_congr (mem_reported_iff hdistinct known key)).mp
        (List.mem_append.not.mpr (not_or.mpr ⟨hchanged, hgone⟩))
      exact Bool.eq_true_of_not_eq_false hsame

/-- **Replacing what is known reports a patch.** No two documents of the list have the same key, and
what is known are objects, so that it can be marked as deleted. A file that is read again replaces
what is known by its documents. -/
theorem replaceWith_isPatch (known : KnownDocuments) (raws : List RawRule)
    (hdistinct : (raws.map RawRule.fileKey).Nodup)
    (hobjects : ∀ key document, known.get? key = some document → document.IsObject) :
    ∃ changed gone removed, (known.replaceWith raws).1 = changed ++ removed ∧
      known.IsPatch raws changed gone removed (known.replaceWith raws).2 ∧
      ∀ text, FileSource.documents text = .ok raws → (FileSource.mk known).poll text =
        ((changed, removed), { known := (known.replaceWith raws).2 }) := by
  refine ⟨known.changed raws, known.gone raws, known.removed raws, rfl, ?_,
    fun text htext => FileSource.poll_of_documents htext _⟩
  -- used twice: as a clause of its own, and to compare the keys
  have hdeletions := forall₂_removed hobjects raws
  exact {
    sublist := List.filter_sublist
    mem_changed := fun _ => mem_changed
    mem_gone := fun _ => mem_gone_iff
    deletions := hdeletions
    get?_next := get?_ofList_iff hdistinct
    nodup := nodup_reported hdistinct known
    minimal := mem_reported_iff hdistinct known
    replay := get?_replay hdistinct known
    keys_removed := fun hkeyed => by
      have hkeys : List.Forall₂ (· = ·) (known.gone raws)
          ((known.removed raws).map RawRule.fileKey) :=
        List.forall₂_map_right_iff.mpr (hdeletions.imp fun _ _ h => (h.fileKey hkeyed).symm)
      rw [List.forall₂_eq_eq_eq] at hkeys
      exact hkeys.symm
    isKeyed := fun key document hget => by
      obtain ⟨raw, -, hkey, rfl⟩ := (get?_ofList_iff hdistinct key document).mp hget
      exact congrArg Prod.snd hkey }

/-- One limit rule is new, one has another limit, one without an id is gone; and a degrade rule has
the id of a limit rule and is repeated. -/
theorem replaceWith_isPatch_mixed :
    let limit (id qps : Int) : RawRule := ⟨.rateLimit, .obj [("id", .int id), ("qps", .int qps)]⟩
    let degrade : RawRule := ⟨.degrade, .obj [("id", .int 1)]⟩
    let unnamed : RawRule := ⟨.rateLimit, .obj [("resource", .str "t"), ("type", .int 3)]⟩
    let known := ofList [limit 1 10, unnamed, degrade]
    let raws := [limit 2 5, degrade, limit 1 20]
    (known.replaceWith raws).1.map RawRule.fileKey =
        [(.rateLimit, "id:2"), (.rateLimit, "id:1"), (.rateLimit, "fields:3||\"t\"|")] ∧
      ∃ changed gone removed, (known.replaceWith raws).1 = changed ++ removed ∧
        known.IsPatch raws changed gone removed (known.replaceWith raws).2 := by
  intro limit degrade unnamed known raws
  refine ⟨by decide +kernel, ?_⟩
  obtain ⟨changed, gone, removed, hreport, hpatch, -⟩ :=
    known.replaceWith_isPatch raws (by decide +kernel) fun key document hget => by
      obtain ⟨raw, hraw, -, rfl⟩ := (get?_ofList_iff (by decide +kernel) key document).mp hget
      have hobject : ∀ raw ∈ [limit 1 10, unnamed, degrade], raw.document.IsObject := by decide
      exact hobject raw hraw
  exact ⟨changed, gone, removed, hreport, hpatch⟩

end KnownDocuments
end Floodgate
