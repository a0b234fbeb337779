import Floodgate.Proofs.Json.Equality
import Floodgate.Proofs.Source.Diff

/-!
# Reading the same file again

A reading is compared with what is known of the reading before, and of several documents with one key
only the last is known. So a file that has not changed is silent exactly if its documents with one
key are the same (`RuleFile.unchanged_is_silent_iff`). Else every reading reports those documents
again that differ from the last one of their key, however often the file is read, and a loader puts
the rule of such a document in force in place of the rule of the last.

Nothing is ever reported as removed when a file is read again.
-/

set_option autoImplicit false

namespace Floodgate

/-- The documents with one key are the same. -/
def RuleFile.IsUnambiguous (raws : List RawRule) : Prop :=
  ∀ raw ∈ raws, ∀ raw' ∈ raws, raw.fileKey = raw'.fileKey → (raw.document == raw'.document) = true

instance (raws : List RawRule) : Decidable (RuleFile.IsUnambiguous raws) :=
  inferInstanceAs (Decidable (∀ raw ∈ raws, ∀ raw' ∈ raws,
    raw.fileKey = raw'.fileKey → (raw.document == raw'.document) = true))

namespace KnownDocuments

/-- Makes the documents of a list those that are known, and reports what has changed. -/
def replaceWith (known : KnownDocuments) (raws : List RawRule) : List RawRule × KnownDocuments :=
  (known.diff raws, ofList raws)

variable {raws : List RawRule} {raw : RawRule}

/-- Of the documents of a list with one key, one is known. -/
theorem exists_known_of_mem (h : raw ∈ raws) :
    ∃ last ∈ raws, last.fileKey = raw.fileKey ∧
      (ofList raws).get? raw.fileKey = some last.document := by
  have hcontains := (contains_ofList_iff raws raw.fileKey).mpr ⟨raw, h, rfl⟩
  rw [ofList, Table.contains, get?_foldl_insert] at hcontains
  rw [ofList, get?_foldl_insert]
  cases hfound : raws.reverse.find? fun raw' => raw'.fileKey = raw.fileKey with
  | some last =>
    refine ⟨last, List.mem_reverse.mp (List.mem_of_find?_eq_some hfound), ?_, rfl⟩
    simpa using List.find?_some hfound
  | none =>
    rw [hfound] at hcontains
    cases hcontains

theorem changed_self_iff : (ofList raws).changed raws = [] ↔ RuleFile.IsUnambiguous raws := by
  have hknown : (ofList raws).changed raws = [] ↔
      ∀ raw ∈ raws, (ofList raws).isKnown raw = true := by
    simp only [changed, List.filter_eq_nil_iff, Bool.not_eq_true', Bool.not_eq_false]
  rw [hknown]
  constructor
  · intro h raw hraw raw' hraw' hkey
    obtain ⟨last, -, -, hlast⟩ := exists_known_of_mem hraw
    have hsame : (last.document == raw.document) = true := by
      simpa [isKnown, hlast] using h raw hraw
    have hsame' : (last.document == raw'.document) = true := by
      simpa [isKnown, ← hkey, hlast] using h raw' hraw'
    exact BEq.trans (BEq.symm hsame) hsame'
  · intro h raw hraw
    obtain ⟨last, hmem, hkey, hlast⟩ := exists_known_of_mem hraw
    rw [isKnown, hlast, Option.any_some]
    exact h last hmem raw hraw hkey

theorem removed_self (raws : List RawRule) : (ofList raws).removed raws = [] := by
  rw [removed, List.map_eq_nil_iff, List.eq_nil_iff_forall_not_mem]
  rintro ⟨key, document⟩ hmem
  rw [Table.mem_entries_iff, Table.get?_filter, Option.filter_eq_some_iff] at hmem
  obtain ⟨hget, hgone⟩ := hmem
  simp [Table.contains, hget] at hgone

theorem diff_self_iff : (ofList raws).diff raws = [] ↔ RuleFile.IsUnambiguous raws := by
  rw [diff, removed_self, List.append_nil, changed_self_iff]

/-- A document may be repeated, and rules of two kinds may have one id. -/
example :
    let limit : RawRule := ⟨.rateLimit, .obj [("id", .int 1), ("qps", .int 10)]⟩
    RuleFile.IsUnambiguous [limit, ⟨.degrade, .obj [("id", .int 1)]⟩, limit] := by
  decide +kernel

end KnownDocuments

namespace FileSource

variable {text : Option String} {raws : List RawRule}

/-- A reading replaces what is known, and reports changes and deletions apart. -/
theorem poll_of_documents (h : documents text = .ok raws) (s : FileSource) :
    s.poll text = ((s.known.changed raws, s.known.removed raws),
      { known := (s.known.replaceWith raws).2 }) := by
  rw [poll, h]
  rfl

/-- A file that cannot be read reports nothing, and is no reason to forget anything. -/
theorem poll_of_error {e : SourceError} (h : documents text = .error e) (s : FileSource) :
    s.poll text = (([], []), s) := by
  rw [poll, h]

/-- A file that has just been loaded is known as it is. So the first poll after it reports what has
changed since then. -/
theorem poll_load (s : FileSource) (text : Option String) :
    let loaded := (s.load text).2
    (loaded.poll text).2 = loaded ∧ (loaded.poll text).1.2 = [] ∧
      ((loaded.poll text).1.1 = [] ↔ ∀ raws ∈ (documents text).toOption,
        RuleFile.IsUnambiguous raws) := by
  intro loaded
  cases h : documents text with
  | ok raws =>
    have hloaded : loaded = { known := KnownDocuments.ofList raws } := by
      simp only [loaded, load, h]
    rw [hloaded, poll_of_documents h]
    refine ⟨rfl, KnownDocuments.removed_self raws, KnownDocuments.changed_self_iff.trans ?_⟩
    exact ⟨fun hraws raws' hmem => Option.some.inj hmem ▸ hraws, fun hall => hall raws rfl⟩
  | error e =>
    rw [poll_of_error h]
    exact ⟨rfl, rfl, iff_of_true rfl fun raws hmem => nomatch hmem⟩

end FileSource

namespace RuleFile

/-- **What has not changed is silent exactly if the documents with one key are the same.** The first
half is about any list of documents that replaces the known ones twice, the second about a file that
is loaded and then read again so many times: it is known as it was loaded, and nothing of it is ever
reported as removed. -/
theorem unchanged_is_silent_iff (known : KnownDocuments) (raws : List RawRule) (source : FileSource)
    (text : Option String) (n : Nat) :
    let next := (known.replaceWith raws).2
    let loaded := (source.load text).2
    let polled := (fun source : FileSource => (source.poll text).2)^[n] loaded
    let report := (polled.poll text).1
    ((next.replaceWith raws).2 = next ∧ ((next.replaceWith raws).1 = [] ↔ IsUnambiguous raws)) ∧
      polled = loaded ∧ report.2 = [] ∧
        (report.1 = [] ↔ ∀ raws ∈ (FileSource.documents text).toOption, IsUnambiguous raws) := by
  intro next loaded polled report
  obtain ⟨hsame, hremoved, hchanged⟩ := source.poll_load text
  have hpolled : polled = loaded := Function.iterate_fixed hsame n
  have hreport : report = (loaded.poll text).1 := hpolled ▸ rfl
  exact ⟨⟨rfl, KnownDocuments.diff_self_iff⟩, hpolled, hreport ▸ hremoved, hreport ▸ hchanged⟩

/-- Two documents with one id and different limits: the first reading puts the second limit in
force, and the next reading, of the same text, reports the first document again and puts the first
limit in force. -/
theorem unchanged_flips_rule :
    let text := some ("\x7b\"rateLimits\":[\x7b\"id\":1,\"type\":3,\"service\":\"s\",\"qps\":10\x7d," ++
      "\x7b\"id\":1,\"type\":3,\"service\":\"s\",\"qps\":20\x7d]\x7d")
    let loader : Loader Unit := {}
    let (loaded, source) := ({} : FileSource).load text
    let before := (loader.applyAll (loaded.toOption.getD []) (.empty, ())).2.1
    let (report, _) := source.poll text
    let after := (loader.applyAll (report.1 ++ report.2) (before, ())).2.1
    report.1.length = 1 ∧ before.limits.rules.map LimitRule.qps = [some 20] ∧
      after.limits.rules.map LimitRule.qps = [some 10] := by
  decide +kernel

end RuleFile
end Floodgate
