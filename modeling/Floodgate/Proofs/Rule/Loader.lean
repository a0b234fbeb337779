import Floodgate.Proofs.Rule.Indices
import Floodgate.Rule.Loader

/-!
# What a document does to the rules

A document of one kind asks for a change of the rules of that kind, so a loader that tells its
listeners the kind of a document tells them what has changed. `Loader.read?_eq_some_cases` is the
inversion: the book after a document is one version later and differs in one table only.
-/

set_option autoImplicit false

universe u

namespace Floodgate

/-- A document asks for a change of its own kind. The kind is said by whoever delivers the document,
and not in the document itself. -/
theorem RawRule.parse_eq_ok_cases {raw : RawRule} {c : RuleChange} (h : raw.parse = .ok c) :
    (raw.kind = .rateLimit ∧ ∃ u, c = .rateLimit u) ∨ (raw.kind = .degrade ∧ ∃ u, c = .degrade u) := by
  obtain ⟨kind, document⟩ := raw
  unfold parse at h
  cases kind with
  | rateLimit =>
    dsimp only at h
    split at h
    · cases h
    · rename_i d _
      cases hd : d.toUpdate with
      | error e =>
        rw [hd] at h
        cases h
      | ok u =>
        rw [hd] at h
        cases h
        exact Or.inl ⟨rfl, u, rfl⟩
  | degrade =>
    dsimp only at h
    split at h
    · cases h
    · rename_i d _
      cases hd : d.toUpdate with
      | error e =>
        rw [hd] at h
        cases h
      | ok u =>
        rw [hd] at h
        cases h
        exact Or.inr ⟨rfl, u, rfl⟩

namespace Loader

variable {book book' : RuleBook} {raw : RawRule}

/-- A document changes the rules if it can be read and what it asks for takes effect. -/
theorem read?_eq_some_iff :
    read? book raw = some book' ↔ ∃ c, raw.parse = .ok c ∧ book.change? c = some book' := by
  unfold read?
  cases raw.parse <;> simp

theorem consistent_of_read? (hb : book.Consistent) (h : read? book raw = some book') :
    book'.Consistent := by
  obtain ⟨c, -, hc⟩ := read?_eq_some_iff.mp h
  exact hb.change hc

/-- The book after a document is one version later, and only the table of its kind has changed. -/
theorem read?_eq_some_cases (h : read? book raw = some book') :
    (raw.kind = .rateLimit ∧
      ∃ limits, book' = { book with version := book.version + 1, limits }) ∨
    (raw.kind = .degrade ∧
      ∃ degrades, book' = { book with version := book.version + 1, degrades }) := by
  obtain ⟨c, hparse, hc⟩ := read?_eq_some_iff.mp h
  rcases RawRule.parse_eq_ok_cases hparse with ⟨hkind, u, rfl⟩ | ⟨hkind, u, rfl⟩
  · rcases RuleBook.change?_eq_some_cases hc with ⟨u', limits, hu, -, rfl⟩ | ⟨u', t, hu, -, -⟩
    · exact Or.inl ⟨hkind, limits, rfl⟩
    · cases hu
  · rcases RuleBook.change?_eq_some_cases hc with ⟨u', t, hu, -, -⟩ | ⟨u', degrades, hu, -, rfl⟩
    · cases hu
    · exact Or.inr ⟨hkind, degrades, rfl⟩

theorem version_of_read? (h : read? book raw = some book') : book'.version = book.version + 1 := by
  rcases read?_eq_some_cases h with ⟨-, t, rfl⟩ | ⟨-, t, rfl⟩ <;> rfl

/-- Listeners are told the kind of the document and shown the new book. -/
theorem apply_of_read?_eq_some {σ : Type u} (l : Loader σ) (h : read? book raw = some book')
    (s : σ) : l.apply raw (book, s) = (true, book', l.notify raw.kind book' s) := by
  rw [apply, h]

/-- Where a document asks for nothing, no listener hears of it. -/
theorem apply_of_read?_eq_none {σ : Type u} (l : Loader σ) (h : read? book raw = none) (s : σ) :
    l.apply raw (book, s) = (false, book, s) := by
  rw [apply, h]

/-- Applying a document: either it changes the rules and the listeners are told, or nothing happens.
A document that cannot be read is one that changes nothing. -/
theorem apply_cases {σ : Type u} (l : Loader σ) (raw : RawRule) (book : RuleBook) (s : σ) :
    (∃ book', read? book raw = some book' ∧
      l.apply raw (book, s) = (true, book', l.notify raw.kind book' s)) ∨
    (read? book raw = none ∧ l.apply raw (book, s) = (false, book, s)) := by
  cases h : read? book raw with
  | some book' => exact Or.inl ⟨book', rfl, l.apply_of_read?_eq_some h s⟩
  | none => exact Or.inr ⟨rfl, l.apply_of_read?_eq_none h s⟩

end Loader
end Floodgate
