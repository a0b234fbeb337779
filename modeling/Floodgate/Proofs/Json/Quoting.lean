import Floodgate.Json.Printer
import Floodgate.Json.Token
import Mathlib.Data.List.Forall2
import Mathlib.Tactic.SplitIfs

/-!
# Strings are read back

A string is written between quotes, with escapes for the characters that may not stand there. What
is written is one token, and that token is the string, whatever text follows it
(`scan?_quote`). So where a text begins with a written string, it is known which string that
is and where it ends (`quote_append_inj`).
-/

set_option autoImplicit false

namespace Floodgate
namespace Json

/-! ## One character -/

/-- The units that stand for a character: the character itself, or its number in four digits. Control
characters alone are written in digits, so no such number is half a surrogate pair. -/
inductive Unit16.Means : Unit16 → Char → Prop where
  | plain (c : Char) : Means (.plain c) c
  | escaped {c : Char} (h : c.toNat < 0x20) : Means (.escaped c.toNat) c

/-- The three ways to write a character in a string. -/
theorem escape_cases (c : Char) :
    (∃ e, escapeLetter? e = some c ∧ escape c = ['\\', e]) ∨
    (c.toNat < 0x20 ∧
      escape c = ['\\', 'u', '0', '0', hexDigit (c.toNat / 16), hexDigit c.toNat]) ∨
    (c ≠ '"' ∧ c ≠ '\\' ∧ ¬ c.toNat < 0x20 ∧ escape c = [c]) := by
  unfold escape
  split_ifs with hquote hbackslash h h h h h hcontrol
  · exact .inl ⟨'"', by rw [hquote]; rfl, rfl⟩
  · exact .inl ⟨'\\', by rw [hbackslash]; rfl, rfl⟩
  · exact .inl ⟨'b', by rw [h]; rfl, rfl⟩
  · exact .inl ⟨'f', by rw [h]; rfl, rfl⟩
  · exact .inl ⟨'n', by rw [h]; rfl, rfl⟩
  · exact .inl ⟨'r', by rw [h]; rfl, rfl⟩
  · exact .inl ⟨'t', by rw [h]; rfl, rfl⟩
  · exact .inr (.inl ⟨hcontrol, rfl⟩)
  · exact .inr (.inr ⟨hquote, hbackslash, hcontrol, rfl⟩)

theorem scanUnits_letter {e c : Char} (h : escapeLetter? e = some c) (rest : List Char)
    (done : List Unit16) (count : Nat) :
    scanUnits ('\\' :: e :: rest) done count = scanUnits rest (.plain c :: done) (count + 2) := by
  have hdigits : e ≠ 'u' := by
    rintro rfl
    cases h
  rw [scanUnits.eq_4 _ _ _ _ (fun _ _ _ _ _ he _ => hdigits he), h]
  rfl

/-- The digits of a control character give its number. -/
theorem hexCode?_control {n : Nat} (h : n < 0x20) :
    hexCode? '0' '0' (hexDigit (n / 16)) (hexDigit n) = some n := by
  decide +revert

/-- A written character is read as one unit, which means that character. -/
theorem exists_scanUnits_escape (c : Char) : ∃ u : Unit16, u.Means c ∧ ∀ rest done count,
    scanUnits (escape c ++ rest) done count =
      scanUnits rest (u :: done) (count + (escape c).length) := by
  rcases escape_cases c with ⟨e, he, hc⟩ | ⟨hcontrol, hc⟩ | ⟨hquote, hbackslash, hcontrol, hc⟩
  · refine ⟨.plain c, .plain c, fun rest done count => ?_⟩
    rw [hc]
    exact scanUnits_letter he rest done count
  · refine ⟨.escaped c.toNat, .escaped hcontrol, fun rest done count => ?_⟩
    simp only [hc, List.cons_append, List.nil_append, scanUnits, hexCode?_control hcontrol]
    rfl
  · refine ⟨.plain c, .plain c, fun rest done count => ?_⟩
    rw [hc, List.singleton_append, scanUnits.eq_5, if_neg hcontrol]
    rfl
    all_goals simp_all

/-! ## All characters -/

/-- Written characters are read up to the closing quote, one unit each. -/
theorem exists_scanUnits_flatMap_escape (cs rest : List Char) :
    ∃ units : List Unit16, List.Forall₂ Unit16.Means units cs ∧ ∀ done count,
      scanUnits (cs.flatMap escape ++ '"' :: rest) done count =
        some (units.reverse ++ done, count + (cs.flatMap escape).length + 1) := by
  induction cs with
  | nil => exact ⟨[], .nil, fun done count => rfl⟩
  | cons c cs ih =>
    obtain ⟨u, hu, hread⟩ := exists_scanUnits_escape c
    obtain ⟨units, hunits, hreads⟩ := ih
    refine ⟨u :: units, .cons hu hunits, fun done count => ?_⟩
    rw [List.flatMap_cons, List.append_assoc, hread, hreads, List.reverse_cons, List.append_assoc,
      List.length_append, Nat.add_assoc count]
    rfl

/-- No unit for a control character is joined with the next. -/
theorem joinUnits_control {n : Nat} (h : n < 0x20) (units : List Unit16) :
    joinUnits (.escaped n :: units) = (Char.ofNat n :: ·) <$> joinUnits units := by
  have hhigh : isHighHalf n = false := by simp [isHighHalf]; omega
  have hlow : isLowHalf n = false := by simp [isLowHalf]; omega
  rcases units with _ | ⟨_ | _, units⟩ <;> simp [joinUnits, hhigh, hlow]

theorem joinUnits_of_means {units : List Unit16} {cs : List Char}
    (h : List.Forall₂ Unit16.Means units cs) : joinUnits units = some cs := by
  induction h with
  | nil => rfl
  | cons hu _ ih =>
    cases hu with
    | plain c => rw [joinUnits, ih]; rfl
    | escaped hcontrol => rw [joinUnits_control hcontrol, ih, Char.ofNat_toNat]; rfl

/-! ## Whole strings -/

theorem toList_quote (s : String) : (quote s).toList = '"' :: (s.toList.flatMap escape ++ ['"']) := by
  simp [quote]

/-- **A written string is read back**, as one token that ends with its closing quote. -/
theorem scan?_quote (s : String) (rest : List Char) :
    scan? '"' (s.toList.flatMap escape ++ '"' :: rest) =
      some (.text (some s), (s.toList.flatMap escape).length + 1) := by
  obtain ⟨units, hunits, hread⟩ := exists_scanUnits_flatMap_escape s.toList rest
  simp [scan?, hread, joinUnits_of_means hunits]

/-- Where a text begins with a written string, that string and the rest of the text are known. -/
theorem quote_append_inj {s s' : String} {rest rest' : List Char}
    (h : (quote s).toList ++ rest = (quote s').toList ++ rest') : s = s' ∧ rest = rest' := by
  simp only [toList_quote, List.cons_append, List.append_assoc, List.cons.injEq, true_and,
    List.nil_append] at h
  have hread := scan?_quote s rest
  rw [h, scan?_quote] at hread
  cases hread
  exact ⟨rfl, (List.cons.inj (List.append_cancel_left h)).2⟩

end Json
end Floodgate
