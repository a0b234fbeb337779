import Floodgate.Proofs.Rule.Documents

/-!
# Rules from documents are compared exactly

`==` on degrade rules is not equality, since `==` on floating-point numbers is not: it takes the two
zeros for one, and what is no number for nothing. A document can put neither in force. Its
threshold lies above zero, and what compares as equal to a number above zero *is* that number. So the
rule that a document puts in force is the same as itself and as no other rule
(`RuleUpdate.IsExact`), and the sets of rules before and after it can be compared by their members.
-/

set_option autoImplicit false

namespace Floodgate

/-- **What is the same as a number above zero is that number.** Zeros are the only numbers that are
the same without being equal. -/
theorem float_eq_of_beq {x y : Float} (h : (x == y) = true) (hy : 0.0 < y) : x = y := by
  obtain ⟨-, -, heq | ⟨-, rfl⟩ | ⟨-, rfl⟩⟩ := Float.beq_iff_ne_nan_and_eq.mp h
  · exact heq
  · exact absurd hy (by decide)
  · exact absurd hy (by decide)

/-- The strategy of a document is the same as no other one. -/
theorem DegradeDocument.eq_of_breakStrategy {d : DegradeDocument} {s s' : BreakStrategy}
    (hd : d.breakStrategy = .ok s') (h : (s == s') = true) : s = s' := by
  rcases breakStrategy_eq_ok_cases hd with ⟨y, -, -, hrange, rfl⟩ | ⟨n, -, -, -, rfl⟩
  · cases s with
    | totalErrors m => cases h
    | errorRatio x => exact congrArg BreakStrategy.errorRatio (float_eq_of_beq h hrange.1)
  · cases s with
    | totalErrors m =>
      have hcount : (m == n) = true := h
      exact congrArg BreakStrategy.totalErrors (beq_iff_eq.mp hcount)
    | errorRatio x => cases h

/-- The rule that a change puts in force, if any, is the same as itself, and as no other. Then it
makes no difference whether rules are compared by `==` or by equality. -/
def RuleUpdate.IsExact {R : Type} [Rule R] : RuleUpdate R → Prop
  | .upsert rule => ∀ x : R, (x == rule) = true ↔ x = rule
  | .delete .. => True

theorem RuleUpdate.isExact_limit (u : RuleUpdate LimitRule) : u.IsExact := by
  cases u with
  | upsert rule => exact fun x => beq_iff_eq
  | delete id resource => trivial

/-- A document that is read as a degrade rule asks for one that is the same as no other. -/
theorem RawRule.isExact_of_parse {raw : RawRule} {u : RuleUpdate DegradeRule}
    (h : raw.parse = .ok (.degrade u)) : u.IsExact := by
  cases u with
  | delete id resource => trivial
  | upsert rule =>
    obtain ⟨-, d, -, hd⟩ := parse_degrade_iff.mp h
    have hstrategy := (DegradeDocument.toUpdate_eq_upsert hd).strategy
    refine fun x => ⟨fun hx => ?_, ?_⟩
    · obtain ⟨hid, hresource, hsame, hrest⟩ := (degradeRule_beq_iff x rule).mp hx
      have hsame := DegradeDocument.eq_of_breakStrategy hstrategy hsame
      obtain ⟨hmin, hmonitor, hbreak, hresume, henabled, hresponse⟩ := hrest
      cases x
      cases rule
      simp_all
    · rintro rfl
      exact degradeRule_beq_self (isNumeric_of_parse h)

end Floodgate
