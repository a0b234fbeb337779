import Floodgate.Text.Blank
import Floodgate.Json.Basic
import Floodgate.Word

/-!
# Records in JSON

A record is a fixed list of named fields. It is written as an object, or as an array of its fields
in order, from which fields may be missing at the end. `Record.ofJson?` sorts the members of
either form into the fields; members that are no field of the record are skipped, and a field
given twice, be it under two names, is an error. The functions below it read one field: a required
one, an optional one, for which `null` is the same as absence, and a flag.
-/

set_option autoImplicit false

namespace Floodgate
namespace Json

/-! ## Values of one kind -/

def string? : Json → Option String
  | str s => some s
  | _ => none

def bool? : Json → Option Bool
  | bool b => some b
  | _ => none

/-- An integer, if it is a signed word. -/
def signed? : Json → Option Int
  | int i => if Word.isSigned i then some i else none
  | _ => none

/-- An integer that is not negative and below a bound. -/
def below? (bound : Nat) : Json → Option Nat
  | int i => if 0 ≤ i ∧ i < bound then some i.toNat else none
  | _ => none

def unsigned8? (j : Json) : Option Nat := j.below? 0x100

def unsigned16? (j : Json) : Option Nat := j.below? 0x10000

def unsigned64? (j : Json) : Option Nat := j.below? Word.size

def floatOfInt (i : Int) : Float :=
  if 0 ≤ i then (UInt64.ofNat i.toNat).toFloat else -(UInt64.ofNat (-i).toNat).toFloat

def float? : Json → Option Float
  | int i => some (floatOfInt i)
  | real x => some x.toFloat
  | _ => none

/-- A flag: a truth value, an integer, of which one is true, or a text for either. -/
def flag? : Json → Option Bool
  | bool b => some b
  | int i => if Word.isSigned i then some (i = 1) else none
  | str s =>
    let t := Text.trim s
    if t = "1" || t = "true" then some true
    else if t = "0" || t = "false" || t = "" then some false
    else none
  | _ => none

/-! ## Fields -/

/-- A field of a record: its name and the other names it goes by. -/
structure Field where
  name : String
  others : List String := []
  deriving DecidableEq

/-- Whether a member of this name is the field. -/
def Field.isCalled (f : Field) (name : String) : Bool := f.name = name || f.others.contains name

/-- The values given for the fields of a record, under the names of the fields. -/
structure Record where
  values : List (String × Json)

namespace Record

/-- The members of an object that are fields, under the names of the fields. -/
def fieldsOf (fields : List Field) (members : List (String × Json)) : List (String × Json) :=
  members.filterMap fun m => (fields.find? (·.isCalled m.1)).map fun f => (f.name, m.2)

def hasRepeats (values : List (String × Json)) : Bool :=
  match values with
  | [] => false
  | (name, _) :: rest => rest.any (·.1 = name) || hasRepeats rest

/-- The record written as an object. -/
def ofObject? (fields : List Field) : Json → Option Record
  | obj members =>
    let values := fieldsOf fields members
    if hasRepeats values then none else some ⟨values⟩
  | _ => none

/-- The record written as an object or as an array. -/
def ofJson? (fields : List Field) : Json → Option Record
  | arr items =>
    if fields.length < items.length then none else some ⟨(fields.map Field.name).zip items⟩
  | j => ofObject? fields j

def get? (r : Record) (name : String) : Option Json := r.values.lookup name

variable {α : Type}

/-- A field that must be given. -/
def required (r : Record) (name : String) (read : Json → Option α) : Option α :=
  r.get? name >>= read

/-- A field that may be missing, with the value it has then. -/
def defaulted (r : Record) (name : String) (default : α) (read : Json → Option α) : Option α :=
  match r.get? name with
  | none => some default
  | some j => read j

/-- A field that may be missing or `null`. -/
def optional (r : Record) (name : String) (read : Json → Option α) : Option (Option α) :=
  match r.get? name with
  | none | some .null => some none
  | some j => (read j).map some

end Record
end Json
end Floodgate
