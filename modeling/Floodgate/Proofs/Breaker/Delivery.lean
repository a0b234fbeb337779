import Floodgate.Proofs.Breaker.LateBook
import Floodgate.Proofs.Breaker.Run
import Mathlib.Data.List.MinMax

/-!
# The order in which rules are delivered

Rule books reach a breaker in any order. It keeps the rule of the newest book it has been shown
(`Breaker.HoldsNewest`), and every call keeps it so (`HoldsNewest.call`), whether it shows a rule,
asks for a decision or reports an outcome. What has been shown is a list, and the newest of a list
does not depend on its order. So two breakers that are shown the same rules in different orders end
with the same rule (`edition_afterCalls_of_perm`), provided that one version has one rule: of two
rules with the same version the later one is taken.
-/

set_option autoImplicit false

namespace Floodgate

/-- The rule that a call shows, with the version of its book. -/
def BreakerCall.shown? : BreakerCall → Option (Edition DegradeRule × Nat)
  | .update edition version => some (edition, version)
  | .permit .. | .outcome .. => none

namespace Breaker

variable {b : Breaker} {shown : List (Edition DegradeRule × Nat)}

/-! ## Showing one rule -/

theorem version_le_update (b : Breaker) (edition : Edition DegradeRule) (version : Nat) :
    b.version ≤ (b.update edition version).2.version := by
  unfold update
  split
  · exact Nat.le_refl b.version
  · rename_i hnewer
    exact Nat.le_of_not_lt hnewer

/-- The answer says whether the breaker holds another rule than before. -/
theorem update_fst_eq_true_iff (b : Breaker) (edition : Edition DegradeRule) (version : Nat) :
    (b.update edition version).1 = true ↔
      (b.update edition version).2.edition.serial ≠ b.edition.serial := by
  unfold update
  split
  · simp
  · simp [ne_comm]

theorem rejectCount_update (b : Breaker) (edition : Edition DegradeRule) (version : Nat) :
    (b.update edition version).2.rejectCount = b.rejectCount := by
  unfold update
  split <;> rfl

/-! ## The newest rule -/

/-- A breaker holds the newest of the rules it has been shown. As long as it has been shown none, its
version is zero, so it takes whatever comes first. -/
structure HoldsNewest (b : Breaker) (shown : List (Edition DegradeRule × Nat)) : Prop where
  le_version : ∀ u ∈ shown, u.2 ≤ b.version
  mem_shown : shown ≠ [] → (b.edition, b.version) ∈ shown
  version_of_nil : shown = [] → b.version = 0

theorem holdsNewest_new (r : Resource) (edition : Edition DegradeRule) :
    (new r edition).HoldsNewest [] where
  le_version _ hu := by cases hu
  mem_shown hne := absurd rfl hne
  version_of_nil _ := rfl

theorem HoldsNewest.congr {b' : Breaker} (h : b.HoldsNewest shown)
    (hedition : b'.edition = b.edition) (hversion : b'.version = b.version) :
    b'.HoldsNewest shown := by
  obtain ⟨hle, hmem, hnil⟩ := h
  rw [← hversion] at hle hmem hnil
  rw [← hedition] at hmem
  exact ⟨hle, hmem, hnil⟩

theorem HoldsNewest.perm {shown' : List (Edition DegradeRule × Nat)} (h : b.HoldsNewest shown)
    (hperm : shown.Perm shown') : b.HoldsNewest shown' where
  le_version u hu := h.le_version u (hperm.mem_iff.mpr hu)
  mem_shown hne := hperm.mem_iff.mp (h.mem_shown fun hnil => hne (hnil ▸ hperm).nil_eq.symm)
  version_of_nil hnil := h.version_of_nil (hnil ▸ hperm).eq_nil

theorem HoldsNewest.update (h : b.HoldsNewest shown) (edition : Edition DegradeRule)
    (version : Nat) :
    (b.update edition version).2.HoldsNewest (shown ++ [(edition, version)]) := by
  by_cases hlt : version < b.version
  · -- something newer has been shown before, for the version is not that of a fresh breaker
    have hne : shown ≠ [] := fun hnil => by
      rw [h.version_of_nil hnil] at hlt
      exact Nat.not_lt_zero version hlt
    rw [update_of_lt hlt]
    refine ⟨fun u hu => ?_, fun _ => List.mem_append_left _ (h.mem_shown hne), by simp⟩
    rcases List.mem_append.mp hu with hu | hu
    · exact h.le_version u hu
    · cases List.mem_singleton.mp hu
      exact Nat.le_of_lt hlt
  · have hle : b.version ≤ version := Nat.le_of_not_lt hlt
    rw [update_of_le hle]
    refine ⟨fun u hu => ?_, fun _ => by simp, by simp⟩
    rcases List.mem_append.mp hu with hu | hu
    · exact (h.le_version u hu).trans hle
    · cases List.mem_singleton.mp hu
      exact Nat.le_refl version

/-- **Whatever is called, a breaker goes on holding the newest rule.** -/
theorem HoldsNewest.call (h : b.HoldsNewest shown) (c : BreakerCall) :
    (b.call c).2.HoldsNewest (shown ++ c.shown?.toList) := by
  cases c with
  | permit stats now draw =>
    obtain ⟨-, hedition, hversion⟩ := b.permit_rule stats now draw
    rw [BreakerCall.shown?, Option.toList_none, List.append_nil]
    exact h.congr hedition hversion
  | outcome success stats now =>
    obtain ⟨-, hedition, hversion⟩ := b.onProbeOutcome_rule success stats now
    rw [BreakerCall.shown?, Option.toList_none, List.append_nil]
    exact h.congr hedition hversion
  | update edition version => exact h.update edition version

theorem holdsNewest_afterCalls (r : Resource) (edition : Edition DegradeRule)
    (cs : List BreakerCall) :
    ((new r edition).afterCalls cs).HoldsNewest (cs.filterMap BreakerCall.shown?) := by
  induction cs using List.reverseRecOn with
  | nil => exact holdsNewest_new r edition
  | append_singleton cs c ih =>
    have hshown : [c].filterMap BreakerCall.shown? = c.shown?.toList := by
      cases h : c.shown? <;> simp [h]
    rw [afterCalls_append, List.filterMap_append, hshown]
    exact ih.call c

theorem version_le_call (b : Breaker) (c : BreakerCall) : b.version ≤ (b.call c).2.version := by
  cases c with
  | permit stats now draw => exact Nat.le_of_eq (b.permit_rule stats now draw).2.2.symm
  | outcome success stats now =>
    exact Nat.le_of_eq (b.onProbeOutcome_rule success stats now).2.2.symm
  | update edition version => exact b.version_le_update edition version

/-! ## All orders -/

/-- The newest rule is one of a kind if a version has only one rule. -/
theorem HoldsNewest.eq_of_isNewest {top : Edition DegradeRule × Nat} (h : b.HoldsNewest shown)
    (hsame : ∀ u ∈ shown, ∀ v ∈ shown, u.2 = v.2 → u.1 = v.1) (hmem : top ∈ shown)
    (htop : ∀ u ∈ shown, u.2 ≤ top.2) : b.edition = top.1 ∧ b.version = top.2 := by
  have hheld : (b.edition, b.version) ∈ shown := h.mem_shown (List.ne_nil_of_mem hmem)
  have hversion : b.version = top.2 := (htop _ hheld).antisymm (h.le_version top hmem)
  exact ⟨hsame _ hheld top hmem hversion, hversion⟩

/-- **The order of delivery does not matter.** A breaker is shown rules, at least one, and rules with
the same version are the same. Then there is a newest among them, and in whatever order they are
shown to a breaker, with whatever requests and outcomes in between, it ends with that. On the way
its version never goes down. Showing it a rule of an older version answers no and changes nothing,
the answer is yes exactly if it holds another rule than before, and its state, the time of its last
transition and the number of rejections are left alone. -/
theorem edition_afterCalls_of_perm (r : Resource) (edition₀ : Edition DegradeRule)
    (shown : List (Edition DegradeRule × Nat)) (hne : shown ≠ [])
    (hsame : ∀ u ∈ shown, ∀ v ∈ shown, u.2 = v.2 → u.1 = v.1) :
    ∃ top ∈ shown, (∀ u ∈ shown, u.2 ≤ top.2) ∧
      ∀ cs : List BreakerCall, (cs.filterMap BreakerCall.shown?).Perm shown →
        ((new r edition₀).afterCalls cs).edition = top.1 ∧
        ((new r edition₀).afterCalls cs).version = top.2 ∧
        ∀ before c later, cs = before ++ c :: later →
          let b := (new r edition₀).afterCalls before
          b.version ≤ (b.call c).2.version ∧
          ∀ edition version, c = .update edition version →
            let answer := b.update edition version
            b.call c = (.updated answer.1, answer.2) ∧
            (version < b.version → answer = (false, b)) ∧
            (answer.1 = true ↔ answer.2.edition.serial ≠ b.edition.serial) ∧
            answer.2.phase = b.phase ∧ answer.2.rejectCount = b.rejectCount := by
  obtain ⟨top, hargmax⟩ := Option.ne_none_iff_exists'.mp
    ((List.argmax_eq_none (f := Prod.snd)).not.mpr hne)
  have hmem : top ∈ shown := List.argmax_mem hargmax
  have htop : ∀ u ∈ shown, u.2 ≤ top.2 := fun u hu => List.le_of_mem_argmax hu hargmax
  refine ⟨top, hmem, htop, fun cs hperm => ?_⟩
  -- what a breaker holds is said of the books that it was shown, in whatever order they came
  have hholds : ((new r edition₀).afterCalls cs).HoldsNewest shown :=
    (holdsNewest_afterCalls r edition₀ cs).perm hperm
  obtain ⟨hedition, hversion⟩ := hholds.eq_of_isNewest hsame hmem htop
  refine ⟨hedition, hversion, fun before c later _ => ?_⟩
  intro b
  refine ⟨b.version_le_call c, ?_⟩
  rintro edition version rfl
  exact ⟨rfl, fun hlt => Prod.ext (by rw [update, if_pos hlt]) (update_of_lt hlt edition),
    b.update_fst_eq_true_iff edition version, b.update_phase edition version,
    b.rejectCount_update edition version⟩

/-- Three books, the newest of which comes twice. In one order it comes first and last, and a request in
between; in the other the books come as they were made. Both end with the rule of the newest. -/
theorem edition_afterCalls_of_perm_newestFirst :
    let r := Resource.service "s"
    let edition (serial : Nat) : Edition DegradeRule := {
      serial, rule := { resource := r, strategy := .totalErrors serial, breakMs := 1000 } }
    let newestFirst := [BreakerCall.update (edition 3) 7,
      .permit (StatStore.new 1000 10) 500 0, .update (edition 1) 5, .update (edition 2) 6,
      .update (edition 3) 7]
    let newestLast := [BreakerCall.update (edition 1) 5, .update (edition 2) 6,
      .update (edition 3) 7, .update (edition 3) 7]
    ((new r (edition 0)).afterCalls newestFirst).edition = edition 3 ∧
      ((new r (edition 0)).afterCalls newestLast).edition = edition 3 := by
  intro r edition newestFirst newestLast
  obtain ⟨top, hmem, htop, hall⟩ := edition_afterCalls_of_perm r (edition 0)
    [(edition 1, 5), (edition 2, 6), (edition 3, 7), (edition 3, 7)] (by simp) (by simp)
  have hnewest : top.1 = edition 3 := by
    have hlast := htop (edition 3, 7) (by simp)
    simp only [List.mem_cons, List.not_mem_nil, or_false] at hmem
    rcases hmem with rfl | rfl | rfl | rfl <;> first | rfl | omega
  have hperm : (newestFirst.filterMap BreakerCall.shown?).Perm
      [(edition 1, 5), (edition 2, 6), (edition 3, 7), (edition 3, 7)] :=
    @List.perm_append_comm _ [(edition 3, 7)] _
  exact ⟨(hall newestFirst hperm).1.trans hnewest, (hall newestLast (.refl _)).1.trans hnewest⟩

end Breaker
end Floodgate
