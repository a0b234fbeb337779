import Floodgate.Stats.Window
import Floodgate.Table

/-!
# The slots of one resource

A `Series` keeps the slots of a resource, each found by its start, and the number of its requests
in flight. Slots come into being when they are written. When the newest slot so far comes into
being, all slots that lie a full retention span or more behind it are dropped; a slot that comes
late drops nothing.

`aggregate` sums up the slots of a window. A short range is looked up slot by slot, a range with
more places than there are slots is read from the slots that are there.
-/

set_option autoImplicit false

namespace Floodgate

/-- The traffic of one resource. -/
structure Series where
  slots : Table Nat Slot := .empty
  /-- The start of the newest slot so far. -/
  newest : Nat := 0
  inFlight : Nat := 0
  touched : Nat := 0

namespace Series

def new (now : Nat) : Series := { touched := now }

/-! ## Requests in flight -/

/-- Takes one unit of concurrency, unless the limit is reached. -/
def acquire? (s : Series) (limit : Option Nat) : Option Series :=
  if limit.any (· ≤ s.inFlight) then none else some { s with inFlight := s.inFlight + 1 }

def acquire (s : Series) : Series := { s with inFlight := s.inFlight + 1 }

/-- Gives one unit of concurrency back; none, if none is taken. -/
def release (s : Series) : Series := { s with inFlight := s.inFlight - 1 }

def touch (s : Series) (now : Nat) : Series := { s with touched := max s.touched now }

/-! ## Slots -/

/-- Drops the slots that lie `retention` or more behind `start`. Nothing has expired as long as time
itself is shorter than that. -/
def expire (s : Series) (start retention : Nat) : Series :=
  if retention ≤ start then
    { s with slots := s.slots.filter fun place _ => decide (start - retention < place) }
  else s

/-- The slot that begins at `start`, and the series in which it has come into being. -/
def slotAt (s : Series) (start retention : Nat) : Slot × Series :=
  match s.slots.get? start with
  | some slot => (slot, s)
  | none =>
    let slot := Slot.new start s.inFlight
    let grown := { s with slots := s.slots.insert start slot }
    if s.newest < start then (slot, { grown with newest := start }.expire start retention)
    else (slot, grown)

/-- Puts a changed slot in its place, if the series has it. -/
def putSlot (s : Series) (slot : Slot) : Series :=
  { s with slots := s.slots.modify slot.start fun _ => slot }

/-- Changes the slot that begins at `start`, which comes into being if need be. -/
def updateSlot (s : Series) (start retention : Nat) (f : Slot → Slot) : Series :=
  let (slot, grown) := s.slotAt start retention
  grown.putSlot (f slot)

/-! ## Windows -/

/-- The least multiple of the slot length from `start` on, if a word can hold it. -/
def firstPlace (start slotMs : Nat) : Nat :=
  Word.mulSaturating (Word.divCeil start slotMs) slotMs

/-- How many slots have their place between the first place and `stop`. -/
def placeCount (first stop slotMs : Nat) : Nat := Word.divCeil (stop - first) slotMs

/-- The slots in `[place, stop)`, looked up place by place, as far as a word can hold the place. -/
@[semireducible] def lookUp (s : Series) (stop slotMs place : Nat) : List Slot :=
  if _h : 0 < slotMs ∧ place < stop then
    (s.slots.get? place).toList ++
      match _hnext : Word.add? place slotMs with
      | some next => s.lookUp stop slotMs next
      | none => []
  else []
termination_by stop - place
decreasing_by
  have hnext := Word.eq_add_of_add? _hnext
  omega

/-- The slots in `[start, stop)`, picked from all. -/
def scanned (s : Series) (start stop : Nat) : List Slot :=
  (s.slots.filter fun place _ => start ≤ place && place < stop).values

/-- The slots in `[start, stop)`, found in whichever way takes fewer steps. -/
def slotsIn (s : Series) (start stop slotMs : Nat) : List Slot :=
  let first := firstPlace start slotMs
  let count := placeCount first stop slotMs
  if count ≤ s.slots.size then s.lookUp stop slotMs first else s.scanned start stop

/-- The traffic in `[start, stop)`, slots being `slotMs` long. -/
def aggregate (s : Series) (start stop slotMs : Nat) : Window :=
  (Window.empty start stop).mergeAll (s.slotsIn start stop (max slotMs 1))

end Series
end Floodgate
