import Floodgate.Rule.Basic
import Mathlib

/-!
# When two rules are the same rule

A rule book compares rules with `==` to find out whether a document changes anything. For limit
rules that is equality. For degrade rules it is not: a threshold is a floating-point number, so a
rule may differ from itself (a threshold that is no number) and two rules that differ in the sign
of a zero threshold are the same.

What the theory of rule tables needs is less than equality. `==` is symmetric and transitive, and
same rules have the same id and the same resource: that is `LawfulRule`, and both kinds of rules
have it. Reflexivity is not part of it; `degradeRule_beq_self` says for which degrade rules it
holds.

That `==` on floating-point numbers is symmetric and transitive, and where it is reflexive, comes from
the library (`PartialEquivBEq Float`, `Float.beq_self_iff`). Hardly any module of Mathlib imports
these, so this one imports Mathlib as a whole.
-/

set_option autoImplicit false

namespace Floodgate

/-! ## Comparison of floating-point numbers -/

/-- Only a number lies above something. The library says this of comparisons that fail, and here it
is needed of one that holds. -/
theorem float_isNaN_of_lt {x y : Float} (h : x < y) : y.isNaN = false := by
  have hlt : (x.toModel.unpack.compare y.toModel.unpack == some .lt) = true :=
    of_decide_eq_true (h : decide (x.toModel < y.toModel) = true)
  show y.toModel.unpack.isNaN = false
  cases hy : y.toModel.unpack with
  | notANumber =>
    rw [hy] at hlt
    cases hx : x.toModel.unpack with
    | notANumber | zero s =>
      rw [hx] at hlt
      cases hlt
    | infinity s | finite s m e p =>
      rw [hx] at hlt
      cases s <;> cases hlt
  | _ => rfl

/-! ## Comparison of strategies -/

/-- The threshold, if there is one, is a number. -/
def BreakStrategy.IsNumeric : BreakStrategy → Prop
  | .totalErrors _ => True
  | .errorRatio x => x.isNaN = false

/-- Strategies of the two kinds are never the same, so one case of each kind is left. -/
theorem breakStrategy_beq_symm {s s' : BreakStrategy} (h : (s == s') = true) :
    (s' == s) = true := by
  cases s <;> cases s'
  case totalErrors.totalErrors n m =>
    have e : (n == m) = true := h
    exact (show (m == n) = true from beq_iff_eq.mpr (beq_iff_eq.mp e).symm)
  case errorRatio.errorRatio x y => exact (show (y == x) = true from BEq.symm (a := x) h)
  all_goals exact absurd h Bool.false_ne_true

theorem breakStrategy_beq_trans {s s' s'' : BreakStrategy} (h : (s == s') = true)
    (h' : (s' == s'') = true) : (s == s'') = true := by
  cases s <;> cases s' <;> cases s''
  case totalErrors.totalErrors.totalErrors n m k =>
    have e : (n == m) = true := h
    have e' : (m == k) = true := h'
    exact (show (n == k) = true from beq_iff_eq.mpr ((beq_iff_eq.mp e).trans (beq_iff_eq.mp e')))
  case errorRatio.errorRatio.errorRatio x y z =>
    exact (show (x == z) = true from BEq.trans (a := x) h h')
  all_goals first | exact absurd h Bool.false_ne_true | exact absurd h' Bool.false_ne_true

theorem BreakStrategy.IsNumeric.beq_self {s : BreakStrategy} (h : s.IsNumeric) :
    (s == s) = true := by
  cases s with
  | totalErrors n => exact beq_self_eq_true n
  | errorRatio x =>
    have hnumber : x.isNaN = false := h
    exact (show (x == x) = true from Float.beq_self_iff.mpr (by simpa using hnumber))

/-! ## Comparison of rules -/

/-- What the comparison of rules of one kind must do for the theory of rule tables. That a rule is
the same as itself is not asked, for it need not be. -/
class LawfulRule (R : Type) [Rule R] : Prop where
  symm : ∀ {a b : R}, (a == b) = true → (b == a) = true
  trans : ∀ {a b c : R}, (a == b) = true → (b == c) = true → (a == c) = true
  id_eq : ∀ {a b : R}, (a == b) = true → Rule.id a = Rule.id b
  resource_eq : ∀ {a b : R}, (a == b) = true → Rule.resource a = Rule.resource b

instance : LawfulRule LimitRule where
  symm h := beq_iff_eq.mpr (beq_iff_eq.mp h).symm
  trans h h' := beq_iff_eq.mpr ((beq_iff_eq.mp h).trans (beq_iff_eq.mp h'))
  id_eq h := congrArg LimitRule.id (beq_iff_eq.mp h)
  resource_eq h := congrArg LimitRule.resource (beq_iff_eq.mp h)

/-- Degrade rules are the same if all their parts are, the strategy up to the comparison of
thresholds. -/
theorem degradeRule_beq_iff (a b : DegradeRule) :
    (a == b) = true ↔
      a.id = b.id ∧ a.resource = b.resource ∧ (a.strategy == b.strategy) = true ∧
        a.minRequests = b.minRequests ∧ a.monitorMs = b.monitorMs ∧ a.breakMs = b.breakMs ∧
        a.resume = b.resume ∧ a.enabled = b.enabled ∧ a.response = b.response := by
  obtain ⟨i, r, s, n, m, k, p, e, o⟩ := a
  obtain ⟨i', r', s', n', m', k', p', e', o'⟩ := b
  show (i == i' && (r == r' && (s == s' && (n == n' && (m == m' && (k == k' && (p == p' &&
    (e == e' && o == o')))))))) = true ↔ _
  simp only [Bool.and_eq_true, beq_iff_eq]

/-- A degrade rule is the same as itself if its threshold is a number. -/
theorem degradeRule_beq_self {rule : DegradeRule} (h : rule.strategy.IsNumeric) :
    (rule == rule) = true :=
  (degradeRule_beq_iff rule rule).mpr ⟨rfl, rfl, h.beq_self, rfl, rfl, rfl, rfl, rfl, rfl⟩

instance : LawfulRule DegradeRule where
  symm h := by
    rw [degradeRule_beq_iff] at h ⊢
    obtain ⟨h₁, h₂, h₃, h₄, h₅, h₆, h₇, h₈, h₉⟩ := h
    exact ⟨h₁.symm, h₂.symm, breakStrategy_beq_symm h₃, h₄.symm, h₅.symm, h₆.symm, h₇.symm,
      h₈.symm, h₉.symm⟩
  trans h h' := by
    rw [degradeRule_beq_iff] at h h' ⊢
    obtain ⟨h₁, h₂, h₃, h₄, h₅, h₆, h₇, h₈, h₉⟩ := h
    obtain ⟨g₁, g₂, g₃, g₄, g₅, g₆, g₇, g₈, g₉⟩ := h'
    exact ⟨h₁.trans g₁, h₂.trans g₂, breakStrategy_beq_trans h₃ g₃, h₄.trans g₄, h₅.trans g₅,
      h₆.trans g₆, h₇.trans g₇, h₈.trans g₈, h₉.trans g₉⟩
  id_eq h := ((degradeRule_beq_iff _ _).mp h).1
  resource_eq h := ((degradeRule_beq_iff _ _).mp h).2.1

end Floodgate
