import Floodgate.Proofs.Rule.Documents

/-!
# Many documents at once

A loader applies documents one after another. What that does to the rules of one kind is a run of
updates over a plain set (`RuleBook.Tracks.applyAll`), and two kinds of runs have a meaning without
order. Rules that do not compete with each other are put in force all together, and drive out what
competes with any of them. Rules that are named by id and resource are removed all together,
provided that no id leads to a rule for another resource than the one it is named with.
-/

set_option autoImplicit false

universe u

namespace Floodgate

/-! ## Runs of updates -/

namespace RuleUpdate

variable {R : Type} [Rule R]

/-- What updates do to a plain set of rules, one after another. -/
def onSetAll (us : List (RuleUpdate R)) (s : List R) : List R := us.foldl (fun s u => u.onSet s) s

theorem onSetAll_append (us us' : List (RuleUpdate R)) (s : List R) :
    onSetAll (us ++ us') s = onSetAll us' (onSetAll us s) := List.foldl_append

/-- Rules that do not compete with each other drive out what competes with one of them. None of them
drives out another, so it makes no difference in which order they come. -/
theorem mem_onSetAll_upserts {rules : List R}
    (halone : rules.Pairwise fun a b => Rule.competes a b = false) (s : List R) (x : R) :
    x ∈ onSetAll (rules.map .upsert) s ↔
      x ∈ rules ∨ x ∈ s ∧ ∀ c ∈ rules, Rule.competes x c = false := by
  induction rules generalizing s with
  | nil => simp [onSetAll]
  | cons rule rest ih =>
    obtain ⟨hrule, hrest⟩ := List.pairwise_cons.mp halone
    rw [List.map_cons, onSetAll, List.foldl_cons, ← onSetAll, ih hrest, onSet, List.mem_cons,
      List.mem_filter, Bool.not_eq_true', List.mem_cons, List.forall_mem_cons]
    constructor
    · rintro (hx | ⟨rfl | ⟨hx, hc⟩, hcs⟩)
      · exact Or.inl (Or.inr hx)
      · exact Or.inl (Or.inl rfl)
      · exact Or.inr ⟨hx, hc, hcs⟩
    · rintro ((rfl | hx) | ⟨hx, hc, hcs⟩)
      · exact Or.inr ⟨Or.inl rfl, hrule⟩
      · exact Or.inl hx
      · exact Or.inr ⟨Or.inr ⟨hx, hc⟩, hcs⟩

/-- A deletion that names an id and the resource that goes with it removes the rule of the resource.
Where no rule has the id it falls back on the resource, which comes to the same. -/
theorem mem_onSet_named {s : List R} {i : Int} {r : Resource}
    (hid : ∀ x ∈ s, Rule.id x = some i → Rule.resource x = r)
    (halone : ∀ x ∈ s, ∀ y ∈ s, Rule.resource x = Rule.resource y → Rule.id x = Rule.id y) (x : R) :
    x ∈ (delete (some i) (some r)).onSet s ↔ x ∈ s ∧ Rule.resource x ≠ r := by
  by_cases hany : s.any (Rule.hasId (some i)) = true
  · obtain ⟨y, hy, hyi⟩ := List.any_eq_true.mp hany
    have hyi : Rule.id y = some i := by simpa using hyi
    rw [onSet, if_pos hany, List.mem_filter]
    refine and_congr_right fun hx => ?_
    have hiff : Rule.id x = some i ↔ Rule.resource x = r :=
      ⟨hid x hx, fun hr => (halone x hx y hy (hr.trans (hid y hy hyi).symm)).trans hyi⟩
    simp [hiff]
  · rw [onSet, if_neg hany, List.mem_filter]
    simp

/-- Deletions that name ids and the resources that go with them remove the rules of the resources.
The hypotheses are kept by each of them, for a smaller set has fewer ids to go astray. -/
theorem mem_onSetAll_named {us : List (RuleUpdate R)} {s : List R}
    (hus : ∀ u ∈ us, ∃ i r, u = .delete (some i) (some r) ∧
      ∀ x ∈ s, Rule.id x = some i → Rule.resource x = r)
    (halone : ∀ x ∈ s, ∀ y ∈ s, Rule.resource x = Rule.resource y → Rule.id x = Rule.id y) (x : R) :
    x ∈ onSetAll us s ↔
      x ∈ s ∧ ∀ id, RuleUpdate.delete id (some (Rule.resource x)) ∉ us := by
  induction us generalizing s with
  | nil => simp [onSetAll]
  | cons u us ih =>
    obtain ⟨i, r, rfl, hid⟩ := hus u List.mem_cons_self
    have hstep := mem_onSet_named hid halone
    have hsub : ∀ {y}, y ∈ (delete (some i) (some r)).onSet s → y ∈ s := fun hy =>
      ((hstep _).mp hy).1
    rw [onSetAll, List.foldl_cons, ← onSetAll, ih (fun u' hu' => ?_)
      (fun y hy z hz => halone y (hsub hy) z (hsub hz)), hstep]
    · simp only [List.mem_cons, delete.injEq, Option.some.injEq, not_or, not_and]
      constructor
      · rintro ⟨⟨hx, hr⟩, hno⟩
        exact ⟨hx, fun id => ⟨fun _ => hr, hno id⟩⟩
      · rintro ⟨hx, hno⟩
        exact ⟨⟨hx, (hno (some i)).1 rfl⟩, fun id => (hno id).2⟩
    · obtain ⟨i', r', e, hid'⟩ := hus u' (List.mem_cons_of_mem _ hu')
      exact ⟨i', r', e, fun y hy => hid' y (hsub hy)⟩

end RuleUpdate

/-! ## What documents ask for -/

section Documents

variable {R : Type} [Documented R]

/-- What a document asks for, if that concerns rules of the kind. A document that cannot be read
asks for nothing. -/
def RawRule.update? (raw : RawRule) : Option (RuleUpdate R) :=
  match raw.parse with
  | .ok c => Documented.update? c
  | .error _ => none

/-- The rule of the kind that a document puts in force. -/
def RawRule.rule? (raw : RawRule) : Option R :=
  match raw.update? (R := R) with
  | some (.upsert rule) => some rule
  | _ => none

/-- The rules of the kind that documents put in force. -/
def rulesOf (raws : List RawRule) : List R := raws.filterMap RawRule.rule?

variable [Rule R] [LawfulDocumented R] {raw : RawRule} {raws : List RawRule}

/-- A document asks for an update exactly if it is read as that change. -/
theorem RawRule.update?_eq_some_iff {u : RuleUpdate R} :
    raw.update? = some u ↔ raw.parse = .ok (Documented.change u) := by
  unfold update?
  cases raw.parse with
  | error e => exact iff_of_false (fun h => nomatch h) fun h => nomatch h
  | ok c => rw [LawfulDocumented.update?_eq_some_iff, Except.ok.injEq]

theorem RawRule.rule?_eq_some_iff {rule : R} : raw.rule? = some rule ↔ raw.Describes rule := by
  rw [Describes, ← update?_eq_some_iff, rule?]
  cases raw.update? (R := R) with
  | none => simp
  | some u => cases u <;> simp

/-- A rule is among those of some documents if one of them describes it. -/
theorem mem_rulesOf_iff {rule : R} : rule ∈ rulesOf raws ↔ ∃ raw ∈ raws, raw.Describes rule := by
  simp only [rulesOf, List.mem_filterMap, RawRule.rule?_eq_some_iff]

end Documents

/-! ## Applying documents -/

/-- The changes that documents ask for. -/
def changesOf (raws : List RawRule) : List RuleChange :=
  raws.filterMap fun raw => raw.parse.toOption

/-- Of all the changes, those of one kind are what the documents of that kind ask for. -/
theorem filterMap_changesOf {R : Type} [Documented R] (raws : List RawRule) :
    (changesOf raws).filterMap (Documented.update? (R := R)) = raws.filterMap RawRule.update? := by
  rw [changesOf, List.filterMap_filterMap]
  refine List.filterMap_congr fun raw _ => ?_
  rw [RawRule.update?]
  cases raw.parse <;> rfl

theorem mem_changesOf_iff {raws : List RawRule} {c : RuleChange} :
    c ∈ changesOf raws ↔ ∃ raw ∈ raws, raw.parse = .ok c := by
  rw [changesOf, List.mem_filterMap]
  refine exists_congr fun raw => and_congr_right fun _ => ?_
  cases raw.parse <;> simp [Except.toOption]

/-- Documents ask for no threshold that is not a number, so the theory of plain sets applies to
them. -/
theorem isNumeric_of_mem_changesOf {raws : List RawRule} {c : RuleChange} (h : c ∈ changesOf raws) :
    c.IsNumeric := by
  obtain ⟨raw, -, hparse⟩ := mem_changesOf_iff.mp h
  exact RawRule.isNumeric_of_parse hparse

namespace Loader

variable {σ : Type u}

/-- Whatever a loader tells its listeners, the rules it is left with are those after the change. -/
theorem book_apply (l : Loader σ) (raw : RawRule) (state : RuleBook × σ) :
    (l.apply raw state).2.1 = (changesOf [raw]).foldl RuleBook.after state.1 := by
  obtain ⟨book, s⟩ := state
  rcases l.apply_cases raw book s with ⟨book', hread, happly⟩ | ⟨hread, happly⟩
  · obtain ⟨c, hc, hchange⟩ := read?_eq_some_iff.mp hread
    rw [happly]
    simp [changesOf, hc, Except.toOption, RuleBook.after, hchange]
  · rw [happly]
    cases hp : raw.parse with
    | error e => simp [changesOf, hp, Except.toOption]
    | ok c =>
      have hchange : book.change? c = none := by
        rw [read?, hp] at hread
        exact hread
      simp [changesOf, hp, Except.toOption, RuleBook.after, hchange]

/-- A list of documents is a run of changes. Documents that cannot be read drop out. -/
theorem book_applyAll (l : Loader σ) (raws : List RawRule) (state : RuleBook × σ) :
    (l.applyAll raws state).2.1 = (changesOf raws).foldl RuleBook.after state.1 := by
  induction raws generalizing state with
  | nil => rfl
  | cons raw rest ih =>
    have happend : changesOf (raw :: rest) = changesOf [raw] ++ changesOf rest := by
      rw [changesOf, changesOf, changesOf, ← List.filterMap_append, List.singleton_append]
    have hnext : (l.applyAll (raw :: rest) state).2.1 =
        (l.applyAll rest (l.apply raw state).2).2.1 := rfl
    rw [hnext, ih, book_apply, happend, List.foldl_append]

end Loader

namespace PlainBook

variable {R : Type} [Rule R] [Documented R] [LawfulDocumented R]

/-- The two kinds do not interfere: a run of changes acts on the rules of one kind as the updates of
that kind alone. -/
theorem rules_foldl_after (cs : List RuleChange) (s : PlainBook) :
    Documented.rules (R := R) (cs.foldl after s) =
      RuleUpdate.onSetAll (cs.filterMap Documented.update?) (Documented.rules s) := by
  induction cs generalizing s with
  | nil => rfl
  | cons c cs ih =>
    rw [List.foldl_cons, ih, List.filterMap_cons]
    cases hc : Documented.update? (R := R) c with
    | none => rw [LawfulDocumented.rules_after_other s hc]
    | some u =>
      rw [LawfulDocumented.update?_eq_some_iff.mp hc, LawfulDocumented.rules_after]
      rfl

end PlainBook

/-- Applying documents to a book that tracks plain sets makes of either set what the updates of its
kind make of it. -/
theorem RuleBook.Tracks.applyAll {σ : Type u} {book : RuleBook} {plain : PlainBook}
    (h : book.Tracks plain) (l : Loader σ) (raws : List RawRule) (s : σ) :
    (l.applyAll raws (book, s)).2.1.Tracks {
      limits := RuleUpdate.onSetAll (raws.filterMap RawRule.update?) plain.limits
      degrades := RuleUpdate.onSetAll (raws.filterMap RawRule.update?) plain.degrades } := by
  have hnext : ((changesOf raws).foldl RuleBook.after book).Tracks
      ((changesOf raws).foldl PlainBook.after plain) :=
    h.foldl fun c hc => isNumeric_of_mem_changesOf hc
  have hlimits := PlainBook.rules_foldl_after (R := LimitRule) (changesOf raws) plain
  have hdegrades := PlainBook.rules_foldl_after (R := DegradeRule) (changesOf raws) plain
  rw [filterMap_changesOf] at hlimits hdegrades
  rw [l.book_applyAll]
  exact ⟨hlimits ▸ hnext.limits, hdegrades ▸ hnext.degrades⟩

end Floodgate
