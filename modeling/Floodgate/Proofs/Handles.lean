import Floodgate.Roster

/-!
# Handles of present holders

A request works on a holder through a handle, while the rest of the library asks for the present
holder of a place. This file relates the two views: `handle?` names the present holder, so reading
it through its handle is reading the place (`get?_of_handle?`), and a change through a handle shows
at the place exactly if the handle is that of the present holder (`current?_modify`).

The second half says what the operations do to `handle?` itself. Only an installation gives a place
another handle; a retained place keeps its own. At the end stand the views by handle of the operations
that work on all places, or on a place without its handle.
-/

set_option autoImplicit false

universe u v

namespace Floodgate
namespace Roster

variable {κ : Type u} {α : Type v} [DecidableEq κ]

/-! ## Reading through a handle -/

theorem handle?_isSome (r : Roster κ α) (k : κ) : (r.handle? k).isSome = (r.current? k).isSome := by
  simp [handle?]

theorem handle?_eq_none_iff (r : Roster κ α) (k : κ) :
    r.handle? k = none ↔ r.current? k = none := by
  simp [handle?]

theorem key_of_handle? {r : Roster κ α} {k : κ} {h : Handle κ} (hk : r.handle? k = some h) :
    h.key = k := by
  obtain ⟨a, -, rfl⟩ := Option.map_eq_some_iff.mp hk
  rfl

theorem held_of_current? {r : Roster κ α} {k : κ} {a : α} (hk : r.current? k = some a) :
    (r.place k).held = true ∧ (r.place k).holders.getLast? = some a := by
  unfold current? Succession.current? at hk
  split at hk
  · exact ⟨‹_›, hk⟩
  · exact absurd hk (by simp)

/-- **Reading through the handle of the present holder is reading the place.** Handles of earlier
holders read what has become of those. -/
theorem get?_of_handle? {r : Roster κ α} {k : κ} {h : Handle κ} (hk : r.handle? k = some h) :
    r.get? h = r.current? k := by
  obtain ⟨a, ha, rfl⟩ := Option.map_eq_some_iff.mp hk
  rw [ha]
  simpa [get?, List.getLast?_eq_getElem?] using (held_of_current? ha).2

/-! ## What shows at a place -/

/-- A change through a handle shows at a place exactly if the handle is that of its present holder.
This is where a request that outlives its breaker or its counters stops mattering to later ones. -/
theorem current?_modify (r : Roster κ α) (h : Handle κ) (f : α → α) (k : κ) :
    (r.modify h f).current? k =
      if r.handle? k = some h then (r.current? k).map f else r.current? k := by
  by_cases hk : k = h.key
  · subst hk
    cases hc : r.current? h.key with
    | none =>
      -- nobody holds the place, so whatever has changed does not show
      have hn : r.handle? h.key = none := (r.handle?_eq_none_iff h.key).mpr hc
      have hp : (r.place h.key).held = true → (r.place h.key).holders = [] := by
        simpa [current?, Succession.current?] using hc
      cases hh : (r.place h.key).held with
      | false => simp [hn, current?, place_modify, Succession.current?, Succession.modify, hh]
      | true =>
        simp [hn, current?, place_modify, Succession.current?, Succession.modify, hh, hp hh]
    | some a =>
      obtain ⟨hh, hl⟩ := held_of_current? hc
      have hlast : (r.place h.key).holders[(r.place h.key).holders.length - 1]? = some a := by
        rw [← List.getLast?_eq_getElem?, hl]
      have hat : r.handle? h.key = some ⟨h.key, (r.place h.key).holders.length - 1⟩ := by
        simp [handle?, hc]
      simp only [current?, place_modify, Succession.current?, Succession.modify, hh, if_true,
        List.getLast?_eq_getElem?, List.length_modify, List.getElem?_modify, hlast, hat]
      obtain ⟨k, n⟩ := h
      by_cases hn : n = (r.place k).holders.length - 1
      · simp [hn]
      · have hn' : ¬ (r.place k).holders.length - 1 = n := fun e => hn e.symm
        simp [hn, hn']
  · have hne : ¬ r.handle? k = some h := fun e => hk (key_of_handle? e).symm
    simp [current?, place_modify, hk, hne]

/-- In particular a change of the present holder shows at its own place and at no other. -/
theorem current?_modify_of_handle? {r : Roster κ α} {k : κ} {h : Handle κ}
    (hk : r.handle? k = some h) (f : α → α) (k' : κ) :
    (r.modify h f).current? k' = if k' = k then (r.current? k).map f else r.current? k' := by
  rw [current?_modify]
  by_cases e : k' = k
  · subst e
    simp [hk]
  · have hne : ¬ r.handle? k' = some h := fun hh =>
      e ((key_of_handle? hh).symm.trans (key_of_handle? hk))
    simp [e, hne]

/-! ## Which handle a place has -/

/-- A change gives no place another holder, whatever it does to the holder that is there. -/
@[simp] theorem handle?_modify (r : Roster κ α) (h : Handle κ) (f : α → α) (k : κ) :
    (r.modify h f).handle? k = r.handle? k := by
  have hlen : ((r.modify h f).place k).holders.length = (r.place k).holders.length := by
    rw [place_modify]
    split
    · simp [Succession.modify]
    · rfl
  have hsome : ((r.modify h f).current? k).isSome = (r.current? k).isSome := by
    rw [current?_modify]
    split <;> simp
  unfold handle?
  rw [hlen]
  cases h₁ : (r.modify h f).current? k <;> cases h₂ : r.current? k <;> simp_all

/-- Only an installation makes a new handle, and it is numbered by how many holders came before. -/
theorem handle?_install (r : Roster κ α) (k k' : κ) (a : α) :
    (r.install k a).handle? k' =
      if k' = k then some ⟨k, (r.place k).holders.length⟩ else r.handle? k' := by
  by_cases e : k' = k
  · subst e
    simp [handle?, current?, Succession.install, Succession.current?]
  · simp [handle?, current?, e]

/-- A holder that is kept stays the one it was, under the same handle. It is not enough that the
place is held before and after, for it might have been vacated and filled again. -/
theorem handle?_retain {r : Roster κ α} {k : κ} {a : α} (hk : r.current? k = some a)
    {keep : κ → α → Bool} (ha : keep k a = true) : (r.retain keep).handle? k = r.handle? k := by
  have hc : (r.retain keep).current? k = some a := by
    rw [current?_retain, hk]
    simp [ha]
  have hp : (r.retain keep).place k = r.place k := by
    have hs : (r.place k).current? = some a := hk
    cases hg : r.places.get? k with
    | none => simp [place, retain, hg]
    | some s =>
      have hs' : s.current? = some a := by simpa [place, hg] using hs
      simp [place, retain, hg, hs', ha]
  rw [handle?, handle?, hc, hp, hk]

/-! ## All holders at once -/

/-- A new holder is found under its own handle, and everyone else where they were. A handle that is
made up, with a number nobody has had, is the one case to be careful about: the next holder may get
it. -/
theorem get?_install (r : Roster κ α) (k : κ) (a : α) (h : Handle κ) :
    (r.install k a).get? h =
      if h = ⟨k, (r.place k).holders.length⟩ then some a else r.get? h := by
  obtain ⟨k', n⟩ := h
  by_cases e : k' = k
  · subst e
    -- an earlier holder, the new one, or nobody
    rcases Nat.lt_trichotomy n (r.place k').holders.length with hn | hn | hn
    · simp [get?, Succession.install, List.getElem?_append_left hn, Nat.ne_of_lt hn]
    · simp [get?, Succession.install, hn]
    · have hbeyond : (r.place k').holders[n]? = none :=
        List.getElem?_eq_none (Nat.le_of_lt hn)
      have hpast : ((r.place k').holders ++ [a])[n]? = none :=
        List.getElem?_eq_none (by simp; omega)
      simp [get?, Succession.install, hbeyond, hpast, Nat.ne_of_gt hn]
  · simp [get?, e]

/-- At each place only the last in the succession is changed, and only if it holds the place. -/
theorem place_modifyCurrent (r : Roster κ α) (f : κ → α → α) (k : κ) :
    (r.modifyCurrent f).place k =
      if (r.place k).held then (r.place k).modify ((r.place k).holders.length - 1) (f k)
      else r.place k := by
  cases hp : r.places.get? k <;> simp [place, modifyCurrent, hp]

@[simp] theorem handle?_modifyCurrent (r : Roster κ α) (f : κ → α → α) (k : κ) :
    (r.modifyCurrent f).handle? k = r.handle? k := by
  have hlen : ((r.modifyCurrent f).place k).holders.length = (r.place k).holders.length := by
    rw [place_modifyCurrent]
    split
    · simp [Succession.modify]
    · rfl
  rw [handle?, handle?, hlen, current?_modifyCurrent, Option.map_map]
  rfl

/-- Changing all present holders changes what their own handles name, and nothing else. -/
theorem get?_modifyCurrent (r : Roster κ α) (f : κ → α → α) (h : Handle κ) :
    (r.modifyCurrent f).get? h =
      if r.handle? h.key = some h then (r.get? h).map (f h.key) else r.get? h := by
  obtain ⟨k, n⟩ := h
  simp only [get?, place_modifyCurrent, handle?, current?, Succession.current?]
  -- at a place that is not held no handle is that of a present holder
  by_cases hh : (r.place k).held
  · cases hl : (r.place k).holders.getLast? with
    | none =>
      have hnil : (r.place k).holders = [] := List.getLast?_eq_none_iff.mp hl
      simp [hh, hnil, Succession.modify]
    | some a =>
      by_cases hn : (r.place k).holders.length - 1 = n
      · simp [hh, hn, Succession.modify]
      · simp [hh, hn, Succession.modify]
  · simp [hh]

end Roster
end Floodgate
