import Floodgate.Proofs.Breaker.Run
import Mathlib.Data.Nat.Bitwise

/-!
# Phases as words

A phase is stored as one word, the state in the upper byte and the time in the bits below. Times have
more bits than that, so a late one is cut off, and there are bytes that are the code of no state. What
is left of a phase that goes through a word, and of a word that goes through a phase, is said by
`Phase.pack_and_unpack`. No bit of the time gets into the byte of the state, however late it is.
-/

set_option autoImplicit false

namespace Floodgate

namespace BreakerState

/-- The bytes that are codes of states. -/
def codes : List Nat := [1, 2, 3, 4]

theorem code_mem_codes (s : BreakerState) : s.code ∈ codes := by cases s <;> decide

theorem exists_code_of_mem {n : Nat} (h : n ∈ codes) : ∃ s, ofCode? n = some s ∧ s.code = n := by
  simp only [codes, List.mem_cons, List.not_mem_nil, or_false] at h
  rcases h with rfl | rfl | rfl | rfl <;> exact ⟨_, rfl, rfl⟩

theorem ofCode?_eq_none {n : Nat} (h : n ∉ codes) : ofCode? n = none := by
  unfold ofCode?
  split <;> first | rfl | exact absurd (by decide) h

end BreakerState

namespace Phase

/-! ## The bits of a word -/

/-- The byte of a word that holds the state. -/
def stateByte (word : Nat) : Nat := (word >>> 56) &&& 0xff

/-- The bits of a word that hold the time. -/
def timeBits (word : Nat) : Nat := word &&& (2 ^ 56 - 1)

theorem stateByte_eq (word : Nat) : stateByte word = word / timeSize % 0x100 := by
  rw [stateByte, Nat.shiftRight_eq_div_pow]
  exact Nat.and_two_pow_sub_one_eq_mod _ 8

theorem timeBits_eq (word : Nat) : timeBits word = word % timeSize :=
  Nat.and_two_pow_sub_one_eq_mod word 56

theorem unpack_eq (word : Nat) : unpack word =
    { state := (BreakerState.ofCode? (stateByte word)).getD .closed, since := timeBits word } := by
  rw [unpack, stateByte_eq, timeBits_eq]

/-- State and time are laid side by side, not added. They share no bit, so that either can be read
off the word without the other. -/
theorem pack_eq_or (p : Phase) : p.pack = p.state.code <<< 56 ||| timeBits p.since := by
  have hlt : p.since % timeSize < 2 ^ 56 := Nat.mod_lt _ (by decide)
  rw [timeBits_eq, ← Nat.shiftLeft_add_eq_or_of_lt hlt, Nat.shiftLeft_eq]
  rfl

theorem pack_lt (p : Phase) : p.pack < Word.size := by
  have hcode := code_lt p.state
  have hlt : p.since % timeSize < timeSize := Nat.mod_lt _ (by decide)
  simp only [pack, timeSize, Word.size] at *
  omega

/-! ## There and back -/

/-- A phase comes back as it was unless its time is cut off, which happens to times of more than
fifty-six bits. -/
theorem unpack_pack_eq_self_iff (p : Phase) : unpack p.pack = p ↔ p.since < timeSize := by
  refine ⟨fun h => ?_, unpack_pack⟩
  have hsince : p.since % timeSize = p.since := by
    rw [unpack_pack_eq] at h
    exact congrArg since h
  exact hsince ▸ Nat.mod_lt _ (by decide)

/-- Phases whose times are not cut off have words of their own. So two words can be compared in
place of the phases they stand for. -/
theorem pack_inj {p q : Phase} (hp : p.since < timeSize) (hq : q.since < timeSize)
    (h : p.pack = q.pack) : p = q := by
  rw [← unpack_pack hp, h, unpack_pack hq]

theorem unpack_of_notMem {word : Nat} (h : stateByte word ∉ BreakerState.codes) :
    unpack word = { state := .closed, since := timeBits word } := by
  rw [unpack_eq, BreakerState.ofCode?_eq_none h]
  rfl

theorem pack_unpack_of_mem {word : Nat} (hword : word < Word.size)
    (h : stateByte word ∈ BreakerState.codes) : (unpack word).pack = word := by
  obtain ⟨s, hs, hcode⟩ := BreakerState.exists_code_of_mem h
  have hbyte : word / timeSize % 0x100 = word / timeSize :=
    Nat.mod_eq_of_lt (by simp only [timeSize, Word.size] at *; omega)
  rw [unpack_eq, hs, Option.getD_some, pack, hcode, stateByte_eq, hbyte, timeBits_eq, Nat.mod_mod,
    Nat.mul_comm, Nat.div_add_mod]

theorem stateByte_pack (p : Phase) : stateByte p.pack = p.state.code := by
  rw [stateByte_eq, pack_div, Nat.mod_eq_of_lt (code_lt p.state)]

/-- A word comes back as it was exactly if its upper byte is the code of a state. -/
theorem pack_unpack_eq_self_iff {word : Nat} (hword : word < Word.size) :
    (unpack word).pack = word ↔ stateByte word ∈ BreakerState.codes := by
  refine ⟨fun h => ?_, pack_unpack_of_mem hword⟩
  rw [← h, stateByte_pack]
  exact BreakerState.code_mem_codes _

/-- **Phases and words.** State and time lie side by side in a word. A phase comes back with its state
and as much of its time as there is room for, so it comes back as it was exactly if its time has
fifty-six bits. A word comes back as it was exactly if its upper byte is the code of a state; any
other byte is read as closed. What comes back once comes back the same ever after, and no two phases
whose times have fifty-six bits share a word. -/
theorem pack_and_unpack :
    (∀ p : Phase,
      p.pack = p.state.code <<< 56 ||| timeBits p.since ∧ p.pack < 2 ^ 64 ∧
      unpack p.pack = { state := p.state, since := p.since % 2 ^ 56 } ∧
      (unpack p.pack = p ↔ p.since < 2 ^ 56)) ∧
    (∀ word < 2 ^ 64,
      ((unpack word).pack = word ↔ stateByte word ∈ [1, 2, 3, 4]) ∧
      (stateByte word ∉ [1, 2, 3, 4] →
        unpack word = { state := .closed, since := timeBits word }) ∧
      (unpack (unpack word).pack).pack = (unpack word).pack) ∧
    ∀ p q : Phase, p.since < 2 ^ 56 → q.since < 2 ^ 56 → p.pack = q.pack → p = q := by
  refine ⟨fun p => ⟨pack_eq_or p, pack_lt p, unpack_pack_eq p, unpack_pack_eq_self_iff p⟩,
    fun word hword => ⟨pack_unpack_eq_self_iff hword, unpack_of_notMem, ?_⟩, fun p q => pack_inj⟩
  exact (pack_unpack_eq_self_iff (pack_lt _)).mpr (stateByte_pack _ ▸ BreakerState.code_mem_codes _)

/-- A time with a bit too many, and a word whose upper byte is the code of no state. -/
theorem pack_and_unpack_late :
    let late : Phase := { state := .open, since := 2 ^ 56 + 5 }
    let foreign : Nat := 0xff00000000000007
    unpack late.pack = { state := .open, since := 5 } ∧ unpack late.pack ≠ late ∧
      unpack foreign = { state := .closed, since := 7 } ∧ (unpack foreign).pack ≠ foreign ∧
      ∀ q : Phase, q.since < 2 ^ 56 → Phase.initial.pack = q.pack → Phase.initial = q := by
  intro late foreign
  obtain ⟨hphases, hwords, hinjective⟩ := pack_and_unpack
  obtain ⟨-, -, hlate, hiff⟩ := hphases late
  obtain ⟨hforeign, hclosed, -⟩ := hwords foreign (by decide)
  refine ⟨hlate.trans (by decide), fun h => absurd (hiff.mp h) (by decide),
    (hclosed (by decide)).trans (by decide), fun h => absurd (hforeign.mp h) (by decide), ?_⟩
  exact fun q hq h => hinjective _ q (by decide) hq h

end Phase
end Floodgate
