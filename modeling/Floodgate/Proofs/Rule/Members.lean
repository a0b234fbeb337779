import Floodgate.Proofs.Rule.Notices

/-!
# The rules after documents, member by member

`Batch` says what a list of documents makes of the rules up to the comparison of rules, which is all
that can be said of rules from anywhere. Documents put rules in force that are the same as no other
(`RuleUpdate.IsExact`), so about them more can be said: after a list of documents the members of
either set of rules are exactly those that a plain set would have, whatever rules were in force
before (`Loader.sameMembers_applyAll`). In particular a rule that was not there before is one that
some document describes.
-/

set_option autoImplicit false

universe u

namespace Floodgate

/-! ## Plain sets with the same members -/

namespace RuleUpdate

variable {R : Type} [Rule R] {s s' : List R}

/-- An update looks at members only, not at the order or at repetitions. -/
theorem mem_onSet_congr (h : ∀ x, x ∈ s ↔ x ∈ s') (u : RuleUpdate R) (x : R) :
    x ∈ u.onSet s ↔ x ∈ u.onSet s' := by
  cases u with
  | upsert rule => simp only [onSet, List.mem_cons, List.mem_filter, h]
  | delete id resource =>
    have hany : s.any (Rule.hasId id) = s'.any (Rule.hasId id) := by
      rw [Bool.eq_iff_iff, List.any_eq_true, List.any_eq_true]
      simp only [h]
    rw [onSet, onSet, hany]
    split <;> simp only [List.mem_filter, h]

theorem mem_of_mem_onSet {u : RuleUpdate R} {x : R} (h : x ∈ u.onSet s) :
    x ∈ s ∨ u = .upsert x := by
  cases u with
  | upsert rule =>
    rcases List.mem_cons.mp h with rfl | hx
    · exact .inr rfl
    · exact .inl (List.mem_filter.mp hx).1
  | delete id resource =>
    rw [onSet] at h
    split at h <;> exact .inl (List.mem_filter.mp h).1

/-- What is in force after some updates was there before, or one of them puts it in force. So every
property that the rules of documents have is kept by documents. -/
theorem mem_of_mem_onSetAll {us : List (RuleUpdate R)} {x : R} (h : x ∈ onSetAll us s) :
    x ∈ s ∨ .upsert x ∈ us := by
  induction us generalizing s with
  | nil => exact .inl h
  | cons u us ih =>
    rcases ih h with hx | hx
    · exact (mem_of_mem_onSet hx).imp_right fun e : u = .upsert x => e ▸ List.mem_cons_self
    · exact .inr (List.mem_cons_of_mem _ hx)

end RuleUpdate

namespace PlainBook

variable {s s' s'' : PlainBook}

theorem SameMembers.symm (h : s.SameMembers s') : s'.SameMembers s :=
  ⟨fun x => (h.1 x).symm, fun x => (h.2 x).symm⟩

theorem SameMembers.trans (h : s.SameMembers s') (h' : s'.SameMembers s'') : s.SameMembers s'' :=
  ⟨fun x => (h.1 x).trans (h'.1 x), fun x => (h.2 x).trans (h'.2 x)⟩

theorem SameMembers.after (h : s.SameMembers s') (c : RuleChange) :
    (s.after c).SameMembers (s'.after c) := by
  cases c with
  | rateLimit u => exact ⟨RuleUpdate.mem_onSet_congr h.1 u, h.2⟩
  | degrade u => exact ⟨h.1, RuleUpdate.mem_onSet_congr h.2 u⟩

theorem SameMembers.foldl_after (h : s.SameMembers s') (cs : List RuleChange) :
    (cs.foldl PlainBook.after s).SameMembers (cs.foldl PlainBook.after s') := by
  induction cs generalizing s s' with
  | nil => exact h
  | cons c cs ih => exact ih (h.after c)

end PlainBook

/-! ## Lists of documents -/

namespace RuleBook

variable {book : RuleBook}

/-- Whether or not a document takes effect, it makes of the rules what it makes of plain sets. If it
takes none, its rule is in force already, and not only one that is the same. -/
theorem sameMembers_after (hb : book.Consistent) {raw : RawRule} {c : RuleChange}
    (hc : raw.parse = .ok c) : (book.after c).plain.SameMembers (book.plain.after c) := by
  rw [RuleBook.after]
  cases h : book.change? c with
  | none => exact ((change?_eq_none_iff hb hc).mp h).symm
  | some book' => exact sameMembers_change hb h

/-- The same after a run of changes, as long as each of them comes from a document. -/
theorem sameMembers_foldl_after (hb : book.Consistent) {cs : List RuleChange}
    (hcs : ∀ c ∈ cs, ∃ raw : RawRule, raw.parse = .ok c) :
    (cs.foldl RuleBook.after book).plain.SameMembers (cs.foldl PlainBook.after book.plain) := by
  induction cs generalizing book with
  | nil => exact ⟨fun x => Iff.rfl, fun x => Iff.rfl⟩
  | cons c cs ih =>
    obtain ⟨⟨raw, hc⟩, hrest⟩ := List.forall_mem_cons.mp hcs
    exact (ih (hb.after c) hrest).trans ((sameMembers_after hb hc).foldl_after cs)

end RuleBook

namespace Loader

variable {σ : Type u} (l : Loader σ) {book : RuleBook} (raws : List RawRule) (s : σ)

/-- **Documents make of the rules what they make of plain sets**, member by member, whatever rules
they find. -/
theorem sameMembers_applyAll (hb : book.Consistent) :
    (l.applyAll raws (book, s)).2.1.plain.SameMembers {
      limits := RuleUpdate.onSetAll (raws.filterMap RawRule.update?) book.plain.limits
      degrades := RuleUpdate.onSetAll (raws.filterMap RawRule.update?) book.plain.degrades } := by
  have hread : ∀ c ∈ changesOf raws, ∃ raw : RawRule, raw.parse = .ok c := fun c hc =>
    (mem_changesOf_iff.mp hc).imp fun _ h => h.2
  have hsame := RuleBook.sameMembers_foldl_after hb hread
  have hlimits := PlainBook.rules_foldl_after (R := LimitRule) (changesOf raws) book.plain
  have hdegrades := PlainBook.rules_foldl_after (R := DegradeRule) (changesOf raws) book.plain
  rw [filterMap_changesOf] at hlimits hdegrades
  rw [l.book_applyAll]
  exact ⟨hlimits ▸ hsame.1, hdegrades ▸ hsame.2⟩

end Loader

end Floodgate
