/-!
# Finite maps

A `Table` is a list of entries in which no key occurs twice. That is all the structure a store of
rules, slots or breakers needs: nothing observable depends on the order of the entries, and every
listing that leaves the library is sorted where it is made. `get?` is the view of a table; each
operation comes with the equation that says what it does to that view.
-/

set_option autoImplicit false

universe u v

namespace Floodgate

/-- A finite map, as its entries. -/
structure Table (κ : Type u) (α : Type v) where
  entries : List (κ × α)
  /-- No key has two entries. -/
  nodup : (entries.map Prod.fst).Nodup

namespace Table

variable {κ : Type u} {α : Type v}

def empty : Table κ α := { entries := [], nodup := List.nodup_nil }

instance : Inhabited (Table κ α) := ⟨empty⟩

def keys (t : Table κ α) : List κ := t.entries.map Prod.fst

/-- The values, in the order of `keys`. -/
def values (t : Table κ α) : List α := t.entries.map Prod.snd

def size (t : Table κ α) : Nat := t.entries.length

variable [DecidableEq κ]

def get? (t : Table κ α) (k : κ) : Option α :=
  (t.entries.find? fun e => e.1 = k).map Prod.snd

def contains (t : Table κ α) (k : κ) : Bool := (t.get? k).isSome

def filter (t : Table κ α) (keep : κ → α → Bool) : Table κ α where
  entries := t.entries.filter fun e => keep e.1 e.2
  nodup := t.nodup.sublist (List.filter_sublist.map _)

def erase (t : Table κ α) (k : κ) : Table κ α := t.filter fun k' _ => k' ≠ k

/-- Puts a value at a key, in place of the one that was there. -/
def insert (t : Table κ α) (k : κ) (a : α) : Table κ α where
  entries := (k, a) :: (t.erase k).entries
  nodup := by
    rw [List.map_cons, List.nodup_cons]
    refine ⟨?_, (t.erase k).nodup⟩
    simp [erase, filter]

def map (t : Table κ α) (f : κ → α → α) : Table κ α where
  entries := t.entries.map fun e => (e.1, f e.1 e.2)
  nodup := by
    rw [List.map_map]
    exact t.nodup

def modify (t : Table κ α) (k : κ) (f : α → α) : Table κ α :=
  t.map fun k' a => if k' = k then f a else a

/-! ## The view after each operation -/

theorem mem_entries_iff (t : Table κ α) (k : κ) (a : α) :
    (k, a) ∈ t.entries ↔ t.get? k = some a := by
  obtain ⟨es, nodup⟩ := t
  simp only [get?]
  induction es with
  | nil => simp
  | cons e es ih =>
    obtain ⟨k', a'⟩ := e
    simp only [List.map_cons, List.nodup_cons, List.mem_map, not_exists, not_and] at nodup
    by_cases h : k' = k
    · subst h
      have fresh : (k', a) ∉ es := fun hm => nodup.1 (k', a) hm rfl
      simp [fresh, eq_comm]
    · have other : ¬ k = k' := fun e => h e.symm
      simp [h, other, ih nodup.2]

@[simp] theorem get?_empty (k : κ) : (empty : Table κ α).get? k = none := rfl

theorem get?_filter (t : Table κ α) (keep : κ → α → Bool) (k : κ) :
    (t.filter keep).get? k = (t.get? k).filter (keep k) := by
  apply Option.ext
  intro a
  rw [← mem_entries_iff]
  simp only [filter, List.mem_filter, mem_entries_iff, Option.filter_eq_some_iff]

@[simp] theorem get?_erase (t : Table κ α) (k k' : κ) :
    (t.erase k).get? k' = if k' = k then none else t.get? k' := by
  rw [erase, get?_filter]
  by_cases h : k' = k <;> cases t.get? k' <;> simp [Option.filter, h]

@[simp] theorem get?_insert (t : Table κ α) (k k' : κ) (a : α) :
    (t.insert k a).get? k' = if k' = k then some a else t.get? k' := by
  have step : (t.insert k a).get? k' = if k = k' then some a else (t.erase k).get? k' := by
    by_cases h : k = k' <;> simp [get?, insert, h]
  rw [step]
  by_cases h : k' = k
  · simp [h]
  · have other : ¬ k = k' := fun e => h e.symm
    simp [h, other]

@[simp] theorem get?_map (t : Table κ α) (f : κ → α → α) (k : κ) :
    (t.map f).get? k = (t.get? k).map (f k) := by
  obtain ⟨es, nodup⟩ := t
  simp only [get?, map]
  clear nodup
  induction es with
  | nil => rfl
  | cons e es ih =>
    by_cases h : e.1 = k
    · simp [h]
    · simpa [h] using ih

theorem get?_modify (t : Table κ α) (k k' : κ) (f : α → α) :
    (t.modify k f).get? k' = if k' = k then (t.get? k').map f else t.get? k' := by
  rw [modify, get?_map]
  by_cases h : k' = k <;> simp [h]

theorem mem_keys_iff (t : Table κ α) (k : κ) : k ∈ t.keys ↔ (t.get? k).isSome := by
  simp only [keys, List.mem_map, Option.isSome_iff_exists]
  constructor
  · rintro ⟨⟨k', a⟩, hm, rfl⟩
    exact ⟨a, (t.mem_entries_iff k' a).mp hm⟩
  · rintro ⟨a, ha⟩
    exact ⟨(k, a), (t.mem_entries_iff k a).mpr ha, rfl⟩

end Table
end Floodgate
