import Floodgate.Table

/-!
# Places and their successive holders

A request keeps hold of the counters it was counted in, and of the breaker that let it pass, until
its outcome is known. Both may have been taken off their place by then: an idle resource is
evicted, a rule is deleted. A `Roster` therefore remembers, for every key, all the holders its
place has had, oldest first, together with a mark that says whether the last of them still holds
it. A `Handle` names one holder for good, by its key and its number in that succession.

Keeping the succession per key, and not one list of all holders, makes what happens at one key
invisible at every other: `get?_modify` and `current?_install` say so. `get?_retain` says that a
handle outlives the hold on the place.
-/

set_option autoImplicit false

universe u v

namespace Floodgate

/-- The holders of one place. Only the last one can hold it, so a mark is enough to say whether it
does. -/
structure Succession (α : Type v) where
  /-- All holders, oldest first. -/
  holders : List α := []
  /-- Whether the last of them holds the place now. -/
  held : Bool := false

namespace Succession

variable {α : Type v}

def current? (s : Succession α) : Option α := if s.held then s.holders.getLast? else none

def install (s : Succession α) (a : α) : Succession α :=
  { holders := s.holders ++ [a], held := true }

/-- Changes one holder, whether it still holds the place or not. -/
def modify (s : Succession α) (n : Nat) (f : α → α) : Succession α :=
  { s with holders := s.holders.modify n f }

def vacate (s : Succession α) : Succession α := { s with held := false }

@[simp] theorem current?_install (s : Succession α) (a : α) : (s.install a).current? = some a := by
  simp [current?, install]

@[simp] theorem current?_vacate (s : Succession α) : s.vacate.current? = none := rfl

end Succession

/-- Names one holder of the place at a key, for good. -/
structure Handle (κ : Type u) where
  key : κ
  /-- How many holders came before. -/
  number : Nat
  deriving DecidableEq

/-- For every key the holders its place has had. -/
structure Roster (κ : Type u) (α : Type v) where
  places : Table κ (Succession α) := .empty

namespace Roster

variable {κ : Type u} {α : Type v} [DecidableEq κ]

def empty : Roster κ α := {}

instance : Inhabited (Roster κ α) := ⟨empty⟩

/-- The holders the place at a key has had. -/
def place (r : Roster κ α) (k : κ) : Succession α := (r.places.get? k).getD {}

def current? (r : Roster κ α) (k : κ) : Option α := (r.place k).current?

/-- The handle of the present holder of the place at a key. The number of a holder is its position,
which never changes, since holders are only ever added at the end. -/
def handle? (r : Roster κ α) (k : κ) : Option (Handle κ) :=
  (r.current? k).map fun _ => ⟨k, (r.place k).holders.length - 1⟩

def get? (r : Roster κ α) (h : Handle κ) : Option α := (r.place h.key).holders[h.number]?

def install (r : Roster κ α) (k : κ) (a : α) : Roster κ α :=
  { places := r.places.insert k ((r.place k).install a) }

def modify (r : Roster κ α) (h : Handle κ) (f : α → α) : Roster κ α :=
  { places := r.places.modify h.key fun s => s.modify h.number f }

/-- Empties the places whose present holder does not satisfy a condition. No holder is forgotten, so
handles stay good. -/
def retain (r : Roster κ α) (keep : κ → α → Bool) : Roster κ α :=
  { places := r.places.map fun k s => if s.current?.all (keep k) then s else s.vacate }

def modifyCurrent (r : Roster κ α) (f : κ → α → α) : Roster κ α :=
  { places := r.places.map fun k s => if s.held then s.modify (s.holders.length - 1) (f k) else s }

/-- The keys whose place is held, with the present holder, in no particular order. -/
def toList (r : Roster κ α) : List (κ × α) :=
  r.places.entries.filterMap fun e => e.2.current?.map fun a => (e.1, a)

/-- The keys whose place is held, in no particular order. -/
def keys (r : Roster κ α) : List κ := r.toList.map Prod.fst

def size (r : Roster κ α) : Nat := r.toList.length

/-! ## The view after each operation -/

@[simp] theorem place_install (r : Roster κ α) (k k' : κ) (a : α) :
    (r.install k a).place k' = if k' = k then (r.place k).install a else r.place k' := by
  by_cases h : k' = k <;> simp [place, install, h]

/-- A new holder shows at its own place, and nothing changes at any other. -/
theorem current?_install (r : Roster κ α) (k k' : κ) (a : α) :
    (r.install k a).current? k' = if k' = k then some a else r.current? k' := by
  by_cases h : k' = k <;> simp [current?, h]

theorem place_modify (r : Roster κ α) (h : Handle κ) (f : α → α) (k : κ) :
    (r.modify h f).place k = if k = h.key then (r.place k).modify h.number f else r.place k := by
  by_cases e : k = h.key
  · subst e
    cases hp : r.places.get? h.key <;>
      simp [place, modify, Table.get?_modify, hp, Succession.modify]
  · simp [place, modify, Table.get?_modify, e]

/-- A change is seen through the same handle and through no other. -/
theorem get?_modify (r : Roster κ α) (h h' : Handle κ) (f : α → α) :
    (r.modify h f).get? h' = if h' = h then (r.get? h).map f else r.get? h' := by
  obtain ⟨k, n⟩ := h
  obtain ⟨k', n'⟩ := h'
  by_cases e : k' = k
  · subst e
    by_cases e' : n' = n
    · subst e'
      simp [get?, place_modify, Succession.modify]
    · have other : ¬ n = n' := fun h => e' h.symm
      simp [get?, place_modify, Succession.modify, e', other]
  · simp [get?, place_modify, e]

/-- Emptying places forgets no holder. A request that has a handle finds its counters and its
breaker where it left them. -/
theorem get?_retain (r : Roster κ α) (keep : κ → α → Bool) (h : Handle κ) :
    (r.retain keep).get? h = r.get? h := by
  cases hp : r.places.get? h.key with
  | none => simp [get?, place, retain, hp]
  | some s =>
    by_cases hk : s.current?.all (keep h.key) <;>
      simp [get?, place, retain, hp, hk, Succession.vacate]

/-- A place that is retained shows its holder exactly if the condition holds of it. -/
theorem current?_retain (r : Roster κ α) (keep : κ → α → Bool) (k : κ) :
    (r.retain keep).current? k = (r.current? k).filter (keep k) := by
  cases hp : r.places.get? k with
  | none => simp [current?, place, retain, hp, Succession.current?]
  | some s =>
    cases hc : s.current? with
    | none => simp [current?, place, retain, hp, hc]
    | some a => by_cases hk : keep k a <;> simp [current?, place, retain, hp, hc, hk, Option.filter]

theorem current?_modifyCurrent (r : Roster κ α) (f : κ → α → α) (k : κ) :
    (r.modifyCurrent f).current? k = (r.current? k).map (f k) := by
  cases hp : r.places.get? k with
  | none => simp [current?, place, modifyCurrent, hp, Succession.current?]
  | some s =>
    cases hh : s.held with
    | false => simp [current?, place, modifyCurrent, hp, hh, Succession.current?]
    | true =>
      simp [current?, place, modifyCurrent, hp, hh, Succession.current?, Succession.modify,
        List.getLast?_eq_getElem?]

end Roster
end Floodgate
