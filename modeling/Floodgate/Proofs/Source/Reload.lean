import Floodgate.Proofs.Rule.Batch
import Floodgate.Proofs.Source.Diff

/-!
# Following a rule file

A book that follows a rule file is given all documents of a first text and then, text by text, what
has changed. It does not always end up with the rules of the last text. A document that is gone is
reported whole, after the new ones, and is a deletion by id only as long as a rule of that id is in
force; else its resource decides. So a rule that is new on the resource of a document that is gone
is put in force and removed again, and it stays out of force for as long as its document is
repeated unchanged.

`RuleFile.isLost` says from the texts alone which documents this happens to. A reading makes from
the rules of the documents that were kept so far the rules of those that are kept then
(`RuleFile.sameRules_kept_step`), for every sequence of well-formed texts and both kinds of rules.
`FileSource.Follows.sameRules_iff` is the outcome: the rules in force are those of the documents of
the last text that are not lost, which are the rules that the last text gives to a new book exactly
if no document of it is lost.
-/

set_option autoImplicit false

universe u

namespace Floodgate
namespace RuleFile

/-! ## Documents that are lost -/

/-- Whether two documents are of one kind and name one resource. -/
def sharesResource (raw old : RawRule) : Bool :=
  decide (old.kind = raw.kind) && decide (old.subject?.map Prod.snd = raw.subject?.map Prod.snd)

/-- Whether the rule of a document in the last reading is not in force. Readings are given latest
first. -/
def isLost : List (List RawRule) → RawRule → Bool
  | current :: previous :: earlier, raw =>
    match repeated? previous raw with
    | some old => isLost (previous :: earlier) old
    | none => (gone previous current).any (sharesResource raw)
  | _, _ => false

/-- The documents of the last reading whose rules are in force. -/
def kept : List (List RawRule) → List RawRule
  | [] => []
  | current :: earlier => current.filter fun raw => !isLost (current :: earlier) raw

variable {current previous : List RawRule} {earlier : List (List RawRule)} {raw old : RawRule}

theorem mem_kept_iff :
    raw ∈ kept (current :: earlier) ↔ raw ∈ current ∧ isLost (current :: earlier) raw = false := by
  rw [kept, List.mem_filter, Bool.not_eq_true']

theorem kept_singleton (raws : List RawRule) : kept [raws] = raws :=
  List.filter_eq_self.mpr fun _ _ => rfl

theorem isLost_of_repeated (h : repeated? previous raw = some old) :
    isLost (current :: previous :: earlier) raw = isLost (previous :: earlier) old := by
  rw [isLost, h]

theorem isLost_of_changed (h : repeated? previous raw = none) :
    isLost (current :: previous :: earlier) raw =
      (gone previous current).any (sharesResource raw) := by
  rw [isLost, h]

/-! ## One more reading -/

section Step

variable {R : Type} [Rule R] [Documented R] [LawfulDocumented R]

/-- The documents of a text, well-formed. In what was read from a text the members are sorted. -/
structure IsReading (raws : List RawRule) : Prop extends WellFormed raws where
  sorted : ∀ raw ∈ raws, ∀ members, raw.document = .obj members → Json.IsSorted members

theorem mem_rulesOf_gone_iff {rule : R} : rule ∈ rulesOf (gone previous current) ↔
    ∃ old ∈ previous, (∀ now ∈ current, now.fileKey ≠ old.fileKey) ∧ old.Describes rule := by
  simp only [mem_rulesOf_iff, mem_gone_iff, and_assoc]

/-- What the documents that are reported as removed ask for: the removal of the rules of the
documents that are gone. -/
theorem mem_updates_removed_iff (hprevious : IsReading previous) {u : RuleUpdate R} :
    (∃ raw ∈ (KnownDocuments.ofList previous).removed current, raw.update? = some u) ↔
      ∃ rule ∈ rulesOf (R := R) (gone previous current),
        u = .delete (Rule.id rule) (some (Rule.resource rule)) := by
  -- a document that is marked as deleted still names the rule that it asked for
  have hdeletion : ∀ old ∈ previous, ∀ rule : R, old.Describes rule →
      old.markDeleted.update? =
        some (.delete (Rule.id rule) (some (Rule.resource rule)) : RuleUpdate R) := by
    intro old hold rule hrule
    obtain ⟨members, hm⟩ := hprevious.object old hold
    exact RawRule.update?_eq_some_iff.mpr
      (LawfulDocumented.parse_markDeleted hm (hprevious.sorted old hold members hm) hrule)
  constructor
  · rintro ⟨raw, hraw, hu⟩
    obtain ⟨old, hgone, rfl⟩ := (KnownDocuments.mem_removed_iff hprevious.nodup_fileKeys).mp hraw
    have hkind : old.kind = Documented.kind R :=
      (LawfulDocumented.kind_iff (RawRule.update?_eq_some_iff.mp hu)).mpr
        (Option.isSome_iff_exists.mpr ⟨u, LawfulDocumented.update?_eq_some_iff.mpr rfl⟩)
    have hold := (mem_gone_iff.mp hgone).1
    obtain ⟨rule, hrule⟩ := hprevious.exists_rule hold hkind
    rw [hdeletion old hold rule hrule] at hu
    exact ⟨rule, mem_rulesOf_iff.mpr ⟨old, hgone, hrule⟩, (Option.some.inj hu).symm⟩
  · rintro ⟨rule, hmem, rfl⟩
    obtain ⟨old, hgone, hrule⟩ := mem_rulesOf_iff.mp hmem
    exact ⟨_, (KnownDocuments.mem_removed_iff hprevious.nodup_fileKeys).mpr ⟨old, hgone, rfl⟩,
      hdeletion old (mem_gone_iff.mp hgone).1 rule hrule⟩

variable {s : List R} {order : List RawRule}

/-- Each rule of a set is the rule of a document. -/
def ComeFrom (s : List R) (raws : List RawRule) : Prop :=
  ∀ x ∈ s, ∃ raw ∈ raws, ∃ y : R, raw.Describes y ∧ (x == y) = true

/-- The rules of changed documents, and those that they do not drive out. -/
def Entered (s : List R) (changed : List RawRule) (x : R) : Prop :=
  x ∈ rulesOf changed ∨ x ∈ s ∧ ∀ c ∈ rulesOf changed, Rule.competes x c = false

/-- What has the id of a document that is gone comes from that document. -/
theorem Entered.resource_eq_of_id (hprevious : WellFormed previous) (hcurrent : WellFormed current)
    (hs : ComeFrom s previous) {changed : List RawRule} (hpart : changed.Sublist current) {x g : R}
    (hx : Entered s changed x) (hg : g ∈ rulesOf (gone previous current))
    (hid : Rule.id x = Rule.id g) : Rule.resource x = Rule.resource g := by
  obtain ⟨old, hold, hno, hog⟩ := mem_rulesOf_gone_iff.mp hg
  rcases hx with hx | ⟨hx, -⟩
  · obtain ⟨raw, hraw, hrx⟩ := mem_rulesOf_iff.mp hx
    have hmem := hpart.subset hraw
    have hkey := (hcurrent.fileKey_eq_iff hmem hrx hprevious hold hog).mpr hid
    exact absurd hkey (hno raw hmem)
  · obtain ⟨raw, hraw, y, hry, hxy⟩ := hs x hx
    obtain rfl := hprevious.eq_of_id hraw hold hry hog ((LawfulRule.id_eq hxy).symm.trans hid)
    rw [LawfulRule.resource_eq hxy, hry.unique hog]

/-- What is for one resource comes from one document. -/
theorem Entered.id_eq_of_resource (hprevious : WellFormed previous) (hcurrent : WellFormed current)
    (hs : ComeFrom s previous) {changed : List RawRule} (hpart : changed.Sublist current) {x y : R}
    (hx : Entered s changed x) (hy : Entered s changed y)
    (hres : Rule.resource x = Rule.resource y) : Rule.id x = Rule.id y := by
  rcases hx with hx | ⟨hx, hxc⟩ <;> rcases hy with hy | ⟨hy, hyc⟩
  · obtain ⟨raw, hraw, hrx⟩ := mem_rulesOf_iff.mp hx
    obtain ⟨raw', hraw', hry⟩ := mem_rulesOf_iff.mp hy
    obtain rfl := hcurrent.eq_of_resource (hpart.subset hraw) (hpart.subset hraw') hrx hry hres
    rw [hrx.unique hry]
  · exact absurd (hyc x hx) (by simp [Rule.competes, hres])
  · exact absurd (hxc y hy) (by simp [Rule.competes, hres])
  · obtain ⟨raw, hraw, x', hrx, hx'⟩ := hs x hx
    obtain ⟨raw', hraw', y', hry, hy'⟩ := hs y hy
    have hres' : Rule.resource x' = Rule.resource y' := by
      rw [← LawfulRule.resource_eq hx', hres, LawfulRule.resource_eq hy']
    obtain rfl := hprevious.eq_of_resource hraw hraw' hrx hry hres'
    rw [LawfulRule.id_eq hx', hrx.unique hry, LawfulRule.id_eq hy']

/-- What a reading leaves of a set of rules: first the rules of the changed documents drive out what
competes with them, and then every rule for the resource of a document that is gone is removed,
whether the document put it in force or not. -/
theorem mem_after_reading_iff (hprevious : IsReading previous) (hcurrent : WellFormed current)
    (hs : ComeFrom s previous)
    (horder : order.Perm ((KnownDocuments.ofList previous).removed current)) (x : R) :
    x ∈ RuleUpdate.onSetAll (((KnownDocuments.ofList previous).changed current ++ order).filterMap
        RawRule.update?) s ↔
      Entered s ((KnownDocuments.ofList previous).changed current) x ∧
        ∀ g ∈ rulesOf (R := R) (gone previous current), Rule.resource g ≠ Rule.resource x := by
  have hwell := hprevious.toWellFormed
  have hpart : ((KnownDocuments.ofList previous).changed current).Sublist current :=
    List.filter_sublist
  -- first the changed documents, whose rules enter; then the removals, in any order
  have hfirst : ∀ x, x ∈ RuleUpdate.onSetAll
      ((rulesOf ((KnownDocuments.ofList previous).changed current)).map .upsert) s ↔
        Entered s ((KnownDocuments.ofList previous).changed current) x :=
    RuleUpdate.mem_onSetAll_upserts (hcurrent.pairwise_rulesOf hpart) s
  have hmem : ∀ {u : RuleUpdate R}, u ∈ order.filterMap RawRule.update? ↔
      ∃ rule ∈ rulesOf (R := R) (gone previous current),
        u = .delete (Rule.id rule) (some (Rule.resource rule)) := by
    intro u
    rw [← mem_updates_removed_iff hprevious, List.mem_filterMap]
    exact exists_congr fun raw => by rw [horder.mem_iff]
  rw [List.filterMap_append, RuleUpdate.onSetAll_append, hcurrent.filterMap_update? hpart,
    RuleUpdate.mem_onSetAll_named, hfirst]
  · refine and_congr_right fun _ => ?_
    simp only [hmem, RuleUpdate.delete.injEq, Option.some.injEq]
    constructor
    · exact fun h g hg e => h _ ⟨g, hg, rfl, e.symm⟩
    · rintro h id ⟨g, hg, -, e⟩
      exact h g hg e.symm
  · intro u hu
    obtain ⟨g, hg, rfl⟩ := hmem.mp hu
    obtain ⟨old, hold, -, hog⟩ := mem_rulesOf_gone_iff.mp hg
    obtain ⟨i, hi, -⟩ := hwell.subject?_eq hold hog
    exact ⟨i, Rule.resource g, by rw [hi], fun x hx hxi =>
      ((hfirst x).mp hx).resource_eq_of_id hwell hcurrent hs hpart hg (hxi.trans hi.symm)⟩
  · exact fun x hx y hy hres =>
      ((hfirst x).mp hx).id_eq_of_resource hwell hcurrent hs hpart ((hfirst y).mp hy) hres

/-- The first reading puts the rules of all its documents in force. There is nothing before it that
could compete with them. -/
theorem sameRules_first (h : WellFormed current) :
    SameRules (RuleUpdate.onSetAll (current.filterMap RawRule.update?) ([] : List R))
      (rulesOf (kept [current])) := by
  have halone := h.pairwise_rulesOf (R := R) (List.Sublist.refl current)
  have hmem : ∀ x : R, x ∈ RuleUpdate.onSetAll ((rulesOf current).map .upsert) [] ↔
      x ∈ rulesOf current := by
    intro x
    rw [RuleUpdate.mem_onSetAll_upserts halone]
    simp
  rw [h.filterMap_update? (List.Sublist.refl current), kept_singleton]
  refine sameRules_of_mem_iff (fun x hx => ?_) hmem
  obtain ⟨raw, -, hrx⟩ := mem_rulesOf_iff.mp ((hmem x).mp hx)
  exact hrx.beq_self

/-- A new document is lost if its resource is that of a document that is gone. -/
theorem isLost_of_changed_iff (hprevious : WellFormed previous) (hcurrent : WellFormed current)
    (hraw : raw ∈ current) (hnew : repeated? previous raw = none) {x : R} (hx : raw.Describes x) :
    isLost (current :: previous :: earlier) raw = true ↔
      ∃ g ∈ rulesOf (R := R) (gone previous current), Rule.resource g = Rule.resource x := by
  obtain ⟨j, -, hj⟩ := hcurrent.subject?_eq hraw hx
  rw [isLost_of_changed hnew, List.any_eq_true]
  simp only [sharesResource, hj, hx.kind_eq, Bool.and_eq_true, decide_eq_true_eq, mem_rulesOf_iff]
  constructor
  · rintro ⟨old, hgone, hkind, hres⟩
    have hold := (mem_gone_iff.mp hgone).1
    obtain ⟨g, hg⟩ := hprevious.exists_rule hold hkind
    obtain ⟨i, -, hi⟩ := hprevious.subject?_eq hold hg
    rw [hi] at hres
    exact ⟨g, ⟨old, hgone, hg⟩, Option.some.inj hres⟩
  · rintro ⟨g, ⟨old, hgone, hg⟩, hres⟩
    obtain ⟨i, -, hi⟩ := hprevious.subject?_eq (mem_gone_iff.mp hgone).1 hg
    exact ⟨old, hgone, hg.kind_eq, by rw [hi]; exact congrArg some hres⟩

/-- A document and the one that it repeats put same rules in force. -/
theorem exists_describes_of_repeated (hprevious : WellFormed previous)
    (hcurrent : WellFormed current) (hraw : raw ∈ current) (h : repeated? previous raw = some old)
    {z : R} (hz : raw.Describes z) : ∃ y : R, old.Describes y ∧ (y == z) = true := by
  obtain ⟨hold, hkey, hsame⟩ := repeated?_eq_some h
  have hkind : old.kind = Documented.kind R := (congrArg Prod.fst hkey).trans hz.kind_eq
  obtain ⟨y, hy⟩ := hprevious.exists_rule hold hkind
  obtain ⟨members, hm⟩ := hprevious.object _ hold
  obtain ⟨members', hm'⟩ := hcurrent.object _ hraw
  exact ⟨y, hy, LawfulDocumented.beq_of_same hm hm' hsame hy hz⟩

theorem mem_rulesOf_kept_iff {y : R} : y ∈ rulesOf (kept (current :: earlier)) ↔
    ∃ raw ∈ current, isLost (current :: earlier) raw = false ∧ raw.Describes y := by
  simp only [mem_rulesOf_iff, mem_kept_iff, and_assoc]

theorem mem_rulesOf_changed_iff (hprevious : WellFormed previous) {c : R} :
    c ∈ rulesOf ((KnownDocuments.ofList previous).changed current) ↔
      ∃ raw ∈ current, repeated? previous raw = none ∧ raw.Describes c := by
  simp only [mem_rulesOf_iff, KnownDocuments.mem_changed_iff hprevious.nodup_fileKeys, and_assoc]

/-- A rule that was kept stays, unless a changed document or one that is gone drives it out: its
document is still there, and has not changed. -/
theorem exists_kept_of_kept (hprevious : WellFormed previous) (hcurrent : WellFormed current) {y : R}
    (hy : y ∈ rulesOf (kept (previous :: earlier)))
    (hchanged : ∀ c ∈ rulesOf ((KnownDocuments.ofList previous).changed current),
      Rule.competes y c = false)
    (hgone : ∀ g ∈ rulesOf (R := R) (gone previous current), Rule.resource g ≠ Rule.resource y) :
    ∃ z ∈ rulesOf (kept (current :: previous :: earlier)), (y == z) = true := by
  obtain ⟨old, hold, hlost, hoy⟩ := mem_rulesOf_kept_iff.mp hy
  -- else its document would be gone, and would have driven out the rule
  obtain ⟨raw, hraw, hkey⟩ : ∃ raw ∈ current, raw.fileKey = old.fileKey := by
    by_contra hno
    exact hgone y (mem_rulesOf_gone_iff.mpr
      ⟨old, hold, fun now hnow e => hno ⟨now, hnow, e⟩, hoy⟩) rfl
  have hkind : raw.kind = Documented.kind R := (congrArg Prod.fst hkey).trans hoy.kind_eq
  obtain ⟨z, hrz⟩ := hcurrent.exists_rule hraw hkind
  cases hrep : repeated? previous raw with
  | none =>
    obtain ⟨i, hi, -⟩ := hcurrent.subject?_eq hraw hrz
    have hid : Rule.id z = Rule.id y := (hcurrent.fileKey_eq_iff hraw hrz hprevious hold hoy).mp hkey
    have hc := hchanged z ((mem_rulesOf_changed_iff hprevious).mpr ⟨raw, hraw, hrep, hrz⟩)
    exact absurd hc (by simp [Rule.competes, ← hid, hi])
  | some old' =>
    obtain ⟨hold', hkey', -⟩ := repeated?_eq_some hrep
    obtain rfl := hprevious.fileKey_injective hold' hold (hkey'.trans hkey)
    obtain ⟨y', hy', hyz⟩ := exists_describes_of_repeated hprevious hcurrent hraw hrep hrz
    obtain rfl := hoy.unique hy'
    exact ⟨z, mem_rulesOf_kept_iff.mpr ⟨raw, hraw, (isLost_of_repeated hrep).trans hlost, hrz⟩, hyz⟩

/-- Nothing drives out the rule of a document that is repeated. -/
theorem undisturbed_of_repeated (hprevious : WellFormed previous) (hcurrent : WellFormed current)
    (hraw : raw ∈ current) (hrep : repeated? previous raw = some old) {y z : R}
    (hoy : old.Describes y) (hrz : raw.Describes z) (hyz : (y == z) = true) :
    (∀ c ∈ rulesOf ((KnownDocuments.ofList previous).changed current),
      Rule.competes y c = false) ∧
    ∀ g ∈ rulesOf (R := R) (gone previous current), Rule.resource g ≠ Rule.resource y := by
  obtain ⟨hold, hkey, -⟩ := repeated?_eq_some hrep
  constructor
  · intro c hc
    obtain ⟨raw', hraw', hnew, hrc⟩ := (mem_rulesOf_changed_iff hprevious).mp hc
    rw [competes_congr hyz, Bool.eq_false_iff]
    intro hcompetes
    obtain rfl := hcurrent.eq_of_competes hraw hraw' hrz hrc hcompetes
    rw [hrep] at hnew
    cases hnew
  · intro g hmemg hres
    obtain ⟨old', hold', hno, hg⟩ := mem_rulesOf_gone_iff.mp hmemg
    obtain rfl := hprevious.eq_of_resource hold' hold hg hoy hres
    exact hno raw hraw hkey.symm

/-- **One more reading**: from the rules of the documents that are kept it makes the rules of the
documents that are kept then. -/
theorem sameRules_kept_step (hprevious : IsReading previous) (hcurrent : WellFormed current)
    (hs : SameRules s (rulesOf (kept (previous :: earlier))))
    (horder : order.Perm ((KnownDocuments.ofList previous).removed current)) :
    SameRules
      (RuleUpdate.onSetAll (((KnownDocuments.ofList previous).changed current ++ order).filterMap
        RawRule.update?) s)
      (rulesOf (kept (current :: previous :: earlier))) := by
  have hwell := hprevious.toWellFormed
  have hafter := mem_after_reading_iff hprevious hcurrent (s := s) (fun x hx => by
    obtain ⟨y, hy, hxy⟩ := hs.1 x hx
    obtain ⟨raw, hraw, -, hry⟩ := mem_rulesOf_kept_iff.mp hy
    exact ⟨raw, hraw, y, hry, hxy⟩) horder
  constructor
  · intro x hx
    obtain ⟨hx | ⟨hx, hxc⟩, hgone⟩ := (hafter x).mp hx
    · -- the rule of a changed document, whose resource no document that is gone had
      obtain ⟨raw, hraw, hnew, hrx⟩ := (mem_rulesOf_changed_iff hwell).mp hx
      have hlost : isLost (current :: previous :: earlier) raw = false := by
        rw [Bool.eq_false_iff, ne_eq, isLost_of_changed_iff hwell hcurrent hraw hnew hrx]
        rintro ⟨g, hg, hres⟩
        exact hgone g hg hres
      exact ⟨x, mem_rulesOf_kept_iff.mpr ⟨raw, hraw, hlost, hrx⟩, hrx.beq_self⟩
    · -- a rule from before
      obtain ⟨y, hy, hxy⟩ := hs.1 x hx
      obtain ⟨z, hz, hyz⟩ := exists_kept_of_kept hwell hcurrent hy
        (fun c hc => competes_congr hxy c ▸ hxc c hc)
        (fun g hg => LawfulRule.resource_eq hxy ▸ hgone g hg)
      exact ⟨z, hz, LawfulRule.trans hxy hyz⟩
  · intro z hz
    obtain ⟨raw, hraw, hlost, hrz⟩ := mem_rulesOf_kept_iff.mp hz
    cases hrep : repeated? previous raw with
    | none =>
      rw [Bool.eq_false_iff, ne_eq, isLost_of_changed_iff hwell hcurrent hraw hrep hrz] at hlost
      have hnew := (mem_rulesOf_changed_iff hwell).mpr ⟨raw, hraw, hrep, hrz⟩
      exact ⟨z, (hafter z).mpr ⟨Or.inl hnew, fun g hg hres => hlost ⟨g, hg, hres⟩⟩, hrz.beq_self⟩
    | some old =>
      -- the rule was in force before
      rw [isLost_of_repeated hrep] at hlost
      obtain ⟨y, hoy, hyz⟩ := exists_describes_of_repeated hwell hcurrent hraw hrep hrz
      obtain ⟨hchanged, hgone⟩ := undisturbed_of_repeated hwell hcurrent hraw hrep hoy hrz hyz
      obtain ⟨x, hx, hxy⟩ := hs.2 y
        (mem_rulesOf_kept_iff.mpr ⟨old, (repeated?_eq_some hrep).1, hlost, hoy⟩)
      refine ⟨x, (hafter x).mpr ⟨Or.inr ⟨hx, fun c hc => ?_⟩, fun g hg => ?_⟩,
        LawfulRule.trans hxy hyz⟩
      · rw [competes_congr hxy]
        exact hchanged c hc
      · rw [LawfulRule.resource_eq hxy]
        exact hgone g hg

/-- The rules of the documents that are kept are all rules exactly if no document is lost. -/
theorem sameRules_kept_iff (hcurrent : WellFormed current)
    (hs : SameRules s (rulesOf (kept (current :: earlier)))) :
    SameRules s (rulesOf current) ↔ ∀ raw ∈ current, raw.kind = Documented.kind R →
      isLost (current :: earlier) raw = false := by
  constructor
  · intro h raw hraw hkind
    obtain ⟨y, hry⟩ := hcurrent.exists_rule hraw hkind
    obtain ⟨x, hx, hxy⟩ := h.2 y (mem_rulesOf_iff.mpr ⟨raw, hraw, hry⟩)
    obtain ⟨z, hz, hxz⟩ := hs.1 x hx
    obtain ⟨raw', hraw', hlost, hrz⟩ := mem_rulesOf_kept_iff.mp hz
    have hid : Rule.id y = Rule.id z := (LawfulRule.id_eq hxy).symm.trans (LawfulRule.id_eq hxz)
    exact hcurrent.eq_of_id hraw hraw' hry hrz hid ▸ hlost
  · intro h
    have hall : ∀ y : R, y ∈ rulesOf (kept (current :: earlier)) ↔ y ∈ rulesOf current := by
      intro y
      simp only [mem_rulesOf_iff, mem_kept_iff]
      exact exists_congr fun raw => and_congr_left fun hry =>
        and_iff_left_of_imp fun hraw => h raw hraw hry.kind_eq
    exact hs.trans (sameRules_of_mem_iff (fun y hy => by
      obtain ⟨raw, -, hry⟩ := mem_rulesOf_iff.mp hy
      exact hry.beq_self) hall)

end Step

end RuleFile

/-! ## Books that follow a file -/

/-- A text is a rule file, and a well-formed one. -/
def RuleFile.WellFormedText (text : String) : Prop := ∃ raws ∈ read? text, WellFormed raws

instance (text : String) : Decidable (RuleFile.WellFormedText text) := by
  unfold RuleFile.WellFormedText
  exact inferInstance

theorem RuleFile.WellFormedText.exists_isReading {text : String} (h : WellFormedText text) :
    ∃ raws, read? text = some raws ∧ IsReading raws := by
  obtain ⟨raws, hread, hwell⟩ := h
  exact ⟨raws, hread, hwell, fun raw hraw members hm => sorted_of_read? hread hraw hm⟩

namespace FileSource

variable {σ : Type u}

/-- A first reading, and the book that is given all its documents. -/
def boot (l : Loader σ) (text : String) (s : σ) : FileSource × RuleBook × σ :=
  match ({} : FileSource).load (some text) with
  | (.ok raws, source) => (source, (l.applyAll raws (RuleBook.empty, s)).2)
  | (.error _, source) => (source, RuleBook.empty, s)

/-- What can come of a file whose texts are read one after another, here listed latest first. The
documents that are gone are reported in any order. -/
inductive Follows (l : Loader σ) : List String → FileSource → RuleBook × σ → Prop
  | boot (text : String) (s : σ) : Follows l [text] (boot l text s).1 (boot l text s).2
  | poll {texts : List String} {source : FileSource} {state : RuleBook × σ} {order : List RawRule}
      (text : String) (h : Follows l texts source state)
      (horder : order.Perm (source.poll (some text)).1.2) :
      Follows l (text :: texts) (source.poll (some text)).2
        (l.applyAll ((source.poll (some text)).1.1 ++ order) state).2

open RuleFile

/-- What is known of a book that follows a file: it tracks the rules of the documents that are
kept, and the source knows the last reading. -/
structure Keeps (readings : List (List RawRule)) (source : FileSource) (book : RuleBook) : Prop where
  known : ∃ current earlier, readings = current :: earlier ∧ IsReading current ∧
    source.known = KnownDocuments.ofList current
  tracks : ∃ plain, book.Tracks plain ∧ SameRules plain.limits (rulesOf (kept readings)) ∧
    SameRules plain.degrades (rulesOf (kept readings))

theorem keeps_boot (l : Loader σ) {text : String} (s : σ) {raws : List RawRule}
    (hread : read? text = some raws) (hraws : IsReading raws) :
    Keeps [raws] (boot l text s).1 (boot l text s).2.1 := by
  have hboot : boot l text s =
      ({ known := KnownDocuments.ofList raws }, (l.applyAll raws (RuleBook.empty, s)).2) := by
    simp only [boot, load, documents, hread]
  have htracks : RuleBook.empty.Tracks {} := ⟨RuleTable.tracks_empty, RuleTable.tracks_empty⟩
  rw [hboot]
  exact ⟨⟨raws, [], rfl, hraws, rfl⟩, _, htracks.applyAll l raws s,
    sameRules_first hraws.toWellFormed, sameRules_first hraws.toWellFormed⟩

theorem Keeps.poll {readings : List (List RawRule)} {source : FileSource} {state : RuleBook × σ}
    (h : Keeps readings source state.1) (l : Loader σ) {text : String} {raws order : List RawRule}
    (hread : read? text = some raws) (hraws : IsReading raws)
    (horder : order.Perm (source.poll (some text)).1.2) :
    Keeps (raws :: readings) (source.poll (some text)).2
      (l.applyAll ((source.poll (some text)).1.1 ++ order) state).2.1 := by
  obtain ⟨⟨previous, earlier, rfl, hprevious, hknown⟩, plain, htracks, hlimits, hdegrades⟩ := h
  have hpoll : source.poll (some text) =
      (((KnownDocuments.ofList previous).changed raws, (KnownDocuments.ofList previous).removed raws),
        { known := KnownDocuments.ofList raws }) := by
    simp only [FileSource.poll, documents, hread, hknown]
  rw [hpoll] at horder ⊢
  exact ⟨⟨raws, _, rfl, hraws, rfl⟩, _, htracks.applyAll l _ state.2,
    sameRules_kept_step hprevious hraws.toWellFormed hlimits horder,
    sameRules_kept_step hprevious hraws.toWellFormed hdegrades horder⟩

theorem Follows.keeps {l : Loader σ} {texts : List String} {source : FileSource}
    {state : RuleBook × σ} (h : Follows l texts source state)
    (hwell : ∀ text ∈ texts, WellFormedText text) :
    Keeps (texts.filterMap read?) source state.1 := by
  induction h with
  | boot text s =>
    obtain ⟨raws, hread, hraws⟩ := (hwell text List.mem_cons_self).exists_isReading
    rw [List.filterMap_cons_some hread]
    exact keeps_boot l s hread hraws
  | poll text _ horder ih =>
    obtain ⟨raws, hread, hraws⟩ := (hwell text List.mem_cons_self).exists_isReading
    rw [List.filterMap_cons_some hread]
    exact (ih fun text' hmem => hwell text' (List.mem_cons_of_mem _ hmem)).poll l hread hraws horder

theorem Keeps.sameRules {readings : List (List RawRule)} {source : FileSource} {book : RuleBook}
    (h : Keeps readings source book) :
    SameRules book.limits.rules (rulesOf (kept readings)) ∧
      SameRules book.degrades.rules (rulesOf (kept readings)) := by
  obtain ⟨plain, htracks, hlimits, hdegrades⟩ := h.tracks
  exact ⟨htracks.limits.same.trans hlimits, htracks.degrades.same.trans hdegrades⟩

/-- **A book that follows a rule file** through well-formed texts holds the rules of the documents of
the last text that are not lost. So it holds the rules that the last text gives to a new book exactly
if no document of the last text is lost. -/
theorem Follows.sameRules_iff {l : Loader σ} {last : String} {earlier : List String}
    {source : FileSource} {state : RuleBook × σ} (h : Follows l (last :: earlier) source state)
    (hwell : ∀ text ∈ last :: earlier, WellFormedText text) (s : σ) :
    let readings := (last :: earlier).filterMap read?
    let fresh := (FileSource.boot l last s).2.1
    (SameRules state.1.limits.rules (rulesOf (kept readings)) ∧
      SameRules state.1.degrades.rules (rulesOf (kept readings))) ∧
    ((SameRules state.1.limits.rules fresh.limits.rules ∧
        SameRules state.1.degrades.rules fresh.degrades.rules) ↔
      ∀ raws ∈ read? last, ∀ raw ∈ raws, isLost readings raw = false) := by
  intro readings fresh
  obtain ⟨raws, hread, hraws⟩ := (hwell last List.mem_cons_self).exists_isReading
  have hreadings : readings = raws :: earlier.filterMap read? := List.filterMap_cons_some hread
  have hkept : SameRules state.1.limits.rules (rulesOf (kept readings)) ∧
      SameRules state.1.degrades.rules (rulesOf (kept readings)) := (h.keeps hwell).sameRules
  have hfresh := (keeps_boot l s hread hraws).sameRules
  rw [kept_singleton] at hfresh
  refine ⟨hkept, ?_⟩
  have hlimits : SameRules state.1.limits.rules fresh.limits.rules ↔ _ :=
    Iff.trans ⟨fun e => e.trans hfresh.1, fun e => e.trans hfresh.1.symm⟩
      (sameRules_kept_iff hraws.toWellFormed (hreadings ▸ hkept.1))
  have hdegrades : SameRules state.1.degrades.rules fresh.degrades.rules ↔ _ :=
    Iff.trans ⟨fun e => e.trans hfresh.2, fun e => e.trans hfresh.2.symm⟩
      (sameRules_kept_iff hraws.toWellFormed (hreadings ▸ hkept.2))
  rw [hlimits, hdegrades, hread, hreadings]
  constructor
  · rintro ⟨hl, hd⟩ raws' hmem raw hraw
    cases hmem
    cases hkind : raw.kind with
    | rateLimit => exact hl raw hraw hkind
    | degrade => exact hd raw hraw hkind
  · intro hall
    exact ⟨fun raw hraw _ => hall raws rfl raw hraw, fun raw hraw _ => hall raws rfl raw hraw⟩

/-- When the document with the new id is changed once more, its rule is in force. -/
theorem Follows.sameRules_iff_renumbered :
    let first := "\x7b\"rateLimits\":[\x7b\"id\":1,\"type\":3,\"service\":\"s\",\"qps\":10\x7d]\x7d"
    let second := "\x7b\"rateLimits\":[\x7b\"id\":2,\"type\":3,\"service\":\"s\",\"qps\":20\x7d]\x7d"
    let last := "\x7b\"rateLimits\":[\x7b\"id\":2,\"type\":3,\"service\":\"s\",\"qps\":30\x7d]\x7d"
    (∀ text ∈ [last, second, first], WellFormedText text) ∧
      ∃ source state, Follows ({} : Loader Unit) [last, second, first] source state ∧
        SameRules state.1.limits.rules
          (FileSource.boot ({} : Loader Unit) last ()).2.1.limits.rules := by
  refine ⟨by decide +kernel, _, _,
    .poll _ (.poll _ (.boot _ ()) (List.Perm.refl _)) (List.Perm.refl _), ?_⟩
  refine ((Follows.sameRules_iff (.poll _ (.poll _ (.boot _ ()) (List.Perm.refl _))
    (List.Perm.refl _)) (by decide +kernel) ()).2.mpr ?_).1
  decide +kernel

/-- A text with one rule for a service, and another in which the rule has a new id: the service is
left without a rule. -/
theorem Follows.not_sameRules_renumbered :
    let first := "\x7b\"rateLimits\":[\x7b\"id\":1,\"type\":3,\"service\":\"s\",\"qps\":10\x7d]\x7d"
    let last := "\x7b\"rateLimits\":[\x7b\"id\":2,\"type\":3,\"service\":\"s\",\"qps\":20\x7d]\x7d"
    (∀ text ∈ [last, first], WellFormedText text) ∧
      ∃ source state, Follows ({} : Loader Unit) [last, first] source state ∧
        ¬ SameRules state.1.limits.rules
          (FileSource.boot ({} : Loader Unit) last ()).2.1.limits.rules := by
  refine ⟨by decide +kernel, _, _, .poll _ (.boot _ ()) (List.Perm.refl _), fun h => ?_⟩
  have hiff := sameRules_limit_iff.mp h
    { id := some 2, resource := .service "s", qps := some 20 }
  exact absurd (hiff.mpr (by decide +kernel)) (by decide +kernel)

end FileSource
end Floodgate
