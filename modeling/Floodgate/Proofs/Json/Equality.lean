import Floodgate.Json.Basic
import Floodgate.Proofs.Rule.Equality

/-!
# Comparison of documents

Documents are compared with `==`, which takes zeros of either sign for one number. It is no equality,
but an equivalence: the numbers of a document are finite, so each of them is the same as itself, as
those of a rule need not be. Nothing else is used of it where readings of a file are compared.
-/

set_option autoImplicit false

namespace Floodgate

/-- What is finite is a number, and so the same as itself. A document holds no other numbers: one
that is too large for a float denotes nothing. -/
theorem FiniteFloat.beq_self (x : FiniteFloat) : (x.toFloat == x.toFloat) = true := by
  refine Float.beq_self_iff.mpr fun hnan => ?_
  have hfinite : x.toFloat.isFinite = true := x.isFinite
  rw [hnan] at hfinite
  exact absurd hfinite (by decide)

namespace Json

/-! The three statements of each kind follow the recursion of the comparison: over a value, the items
of an array and the members of an object. -/

mutual

/-- Every document is the same as itself. Only at a fraction is there something to show, for there
the comparison is that of floats. -/
theorem same_self : ∀ j : Json, same j j = true
  | null | unreadable => rfl
  | bool _ | int _ | str _ => by simp [same]
  | real x => x.beq_self
  | arr items => sameItems_self items
  | obj members => sameMembers_self members

theorem sameItems_self : ∀ items : List Json, sameItems items items = true
  | [] => rfl
  | j :: items => by simp [sameItems, same_self j, sameItems_self items]

theorem sameMembers_self : ∀ members : List (String × Json), sameMembers members members = true
  | [] => rfl
  | (_, j) :: members => by simp [sameMembers, same_self j, sameMembers_self members]

end

mutual

/-- Documents can be compared in either order. Values of different shapes are never the same, so the
cases on the second value follow those on the first. -/
theorem same_symm : ∀ {x y : Json}, same x y = true → same y x = true
  | null, y, h | unreadable, y, h => by cases y <;> exact h
  | bool _, y, h | int _, y, h | str _, y, h => by cases y <;> simp_all [same]
  | real x, y, h => by
    cases y with
    | real y => exact BEq.symm (a := x.toFloat) h
    | _ => cases h
  | arr xs, y, h => by
    cases y with
    | arr ys => exact sameItems_symm h
    | _ => cases h
  | obj xs, y, h => by
    cases y with
    | obj ys => exact sameMembers_symm h
    | _ => cases h

theorem sameItems_symm : ∀ {xs ys : List Json}, sameItems xs ys = true → sameItems ys xs = true
  | [], [], _ => rfl
  | x :: xs, y :: ys, h => by
    obtain ⟨hhead, hrest⟩ := (Bool.and_eq_true _ _).mp h
    exact (Bool.and_eq_true _ _).mpr ⟨same_symm hhead, sameItems_symm hrest⟩

/-- Objects are compared member by member in the order they are kept in. The names are equal
outright, and only the values go by the comparison. -/
theorem sameMembers_symm : ∀ {xs ys : List (String × Json)}, sameMembers xs ys = true →
    sameMembers ys xs = true
  | [], [], _ => rfl
  | (k, x) :: xs, (l, y) :: ys, h => by
    simp only [sameMembers, Bool.and_eq_true, beq_iff_eq] at h ⊢
    exact ⟨⟨h.1.1.symm, same_symm h.1.2⟩, sameMembers_symm h.2⟩

end

mutual

/-- **What is the same as the same is the same.** Zeros of either sign may alternate along the way,
so the equation of two values cannot be used in place of their comparison. -/
theorem same_trans : ∀ {x y z : Json}, same x y = true → same y z = true → same x z = true
  -- each value has the shape of the one before it, or nothing is the same to begin with
  | null, y, z, h, h' | unreadable, y, z, h, h' => by
    cases y <;> first | exact h' | cases h
  | bool a, y, z, h, h' => by
    cases y with
    | bool b => exact (beq_iff_eq.mp h : a = b) ▸ h'
    | _ => cases h
  | int a, y, z, h, h' => by
    cases y with
    | int b => exact (beq_iff_eq.mp h : a = b) ▸ h'
    | _ => cases h
  | str a, y, z, h, h' => by
    cases y with
    | str b => exact (beq_iff_eq.mp h : a = b) ▸ h'
    | _ => cases h
  | real x, y, z, h, h' => by
    cases y with
    | real y =>
      cases z with
      | real z => exact BEq.trans (a := x.toFloat) h h'
      | _ => cases h'
    | _ => cases h
  | arr xs, y, z, h, h' => by
    cases y with
    | arr ys =>
      cases z with
      | arr zs => exact sameItems_trans h h'
      | _ => cases h'
    | _ => cases h
  | obj xs, y, z, h, h' => by
    cases y with
    | obj ys =>
      cases z with
      | obj zs => exact sameMembers_trans h h'
      | _ => cases h'
    | _ => cases h

theorem sameItems_trans : ∀ {xs ys zs : List Json}, sameItems xs ys = true →
    sameItems ys zs = true → sameItems xs zs = true
  | [], [], _, _, h' => h'
  | x :: xs, y :: ys, z :: zs, h, h' => by
    obtain ⟨hhead, hrest⟩ := (Bool.and_eq_true _ _).mp h
    obtain ⟨hhead', hrest'⟩ := (Bool.and_eq_true _ _).mp h'
    exact (Bool.and_eq_true _ _).mpr ⟨same_trans hhead hhead', sameItems_trans hrest hrest'⟩

theorem sameMembers_trans : ∀ {xs ys zs : List (String × Json)}, sameMembers xs ys = true →
    sameMembers ys zs = true → sameMembers xs zs = true
  | [], [], _, _, h' => h'
  | (k, x) :: xs, (l, y) :: ys, (m, z) :: zs, h, h' => by
    simp only [sameMembers, Bool.and_eq_true, beq_iff_eq] at h h' ⊢
    exact ⟨⟨h.1.1.trans h'.1.1, same_trans h.1.2 h'.1.2⟩, sameMembers_trans h.2 h'.2⟩

end

-- What follows uses the comparison through this instance alone, and never takes a document apart to
-- compare it.
instance : EquivBEq Json where
  rfl := same_self _
  symm := same_symm
  trans := same_trans

end Json
end Floodgate
