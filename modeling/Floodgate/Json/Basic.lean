/-!
# JSON values

`Json` is what a text of JSON says, member for member in the order written. A rule document is
such a value in its canonical form: object members sorted by name, the last of repeated names kept
(`canonical`). Documents are compared with `==`, which tells an integer from a real number of the
same value.

Some well-formed texts denote nothing: a number too large for a double, a string with half a
surrogate pair. They are read as `unreadable`, so that a reader that skips a member need not care
what it holds, while one that uses the member can refuse it. `value?` is the step from a text to a
document: it refuses what is unreadable or nested too deep.
-/

set_option autoImplicit false

namespace Floodgate

/-- A double that is neither infinite nor undefined. -/
structure FiniteFloat where
  toFloat : Float
  isFinite : toFloat.isFinite = true

/-- The finite double, unless the value is infinite or undefined. -/
def FiniteFloat.ofFloat? (x : Float) : Option FiniteFloat :=
  if h : x.isFinite = true then some ⟨x, h⟩ else none

/-- What a text of JSON says. -/
inductive Json where
  | null
  | bool (b : Bool)
  /-- A number written without point and exponent, of 64 bits with or without sign. -/
  | int (i : Int)
  /-- Any other number. -/
  | real (x : FiniteFloat)
  | str (s : String)
  | arr (items : List Json)
  | obj (members : List (String × Json))
  /-- A well-formed text that denotes no value. -/
  | unreadable

namespace Json

instance : Inhabited Json := ⟨null⟩

/-! ## Equality -/

mutual

/-- Whether two values are the same; zeros of either sign are. -/
def same : Json → Json → Bool
  | null, null => true
  | bool a, bool b => a == b
  | int a, int b => a == b
  | real a, real b => a.toFloat == b.toFloat
  | str a, str b => a == b
  | arr a, arr b => sameItems a b
  | obj a, obj b => sameMembers a b
  | unreadable, unreadable => true
  | _, _ => false

/-- Whether two lists hold the same values. -/
def sameItems : List Json → List Json → Bool
  | [], [] => true
  | a :: as, b :: bs => same a b && sameItems as bs
  | _, _ => false

/-- Whether two lists hold the same members in the same order. -/
def sameMembers : List (String × Json) → List (String × Json) → Bool
  | [], [] => true
  | (k, a) :: as, (l, b) :: bs => k == l && same a b && sameMembers as bs
  | _, _ => false

end

instance : BEq Json := ⟨same⟩

/-! ## Members -/

/-- The value of a member of an object, the first of that name. -/
def get? : Json → String → Option Json
  | obj members, name => members.lookup name
  | _, _ => none

/-- Puts a member into a list of members sorted by name, in place of one of the same name. -/
def insertMember (name : String) (value : Json) : List (String × Json) → List (String × Json)
  | [] => [(name, value)]
  | (k, v) :: rest =>
    if name < k then (name, value) :: (k, v) :: rest
    else if name = k then (name, value) :: rest
    else (k, v) :: insertMember name value rest

/-- Sets a member of an object; another value stays as it is. -/
def set (j : Json) (name : String) (value : Json) : Json :=
  match j with
  | obj members => obj (insertMember name value members)
  | j => j

/-! ## Canonical form -/

mutual

/-- Every object with its members sorted by name, the last of repeated names kept. -/
def canonical : Json → Json
  | arr items => arr (canonicalItems items)
  | obj members => obj (canonicalMembers members [])
  | j => j

/-- The canonical forms of the items. -/
def canonicalItems : List Json → List Json
  | [] => []
  | j :: rest => canonical j :: canonicalItems rest

/-- Puts the canonical forms of the members into a sorted list, first to last. -/
def canonicalMembers : List (String × Json) → List (String × Json) → List (String × Json)
  | [], done => done
  | (k, j) :: rest, done => canonicalMembers rest (insertMember k (canonical j) done)

end

mutual

/-- Whether a value can be used as a whole: nothing in it is unreadable, and no value in it lies in
more than `depth` arrays and objects. -/
def isUsable (depth : Nat) : Json → Bool
  | unreadable => false
  | arr items => depth != 0 && areUsableItems (depth - 1) items
  | obj members => depth != 0 && areUsableMembers (depth - 1) members
  | _ => true

/-- Whether all items can be used. -/
def areUsableItems (depth : Nat) : List Json → Bool
  | [] => true
  | j :: rest => isUsable depth j && areUsableItems depth rest

/-- Whether all members can be used. -/
def areUsableMembers (depth : Nat) : List (String × Json) → Bool
  | [] => true
  | (_, j) :: rest => isUsable depth j && areUsableMembers depth rest

end

/-- How many arrays and objects a used value may lie in. -/
def depthLimit : Nat := 127

/-- The document that a value read from text stands for, inside of so many arrays and objects. -/
def value? (inside : Nat) (j : Json) : Option Json :=
  if j.isUsable (depthLimit - inside) then some j.canonical else none

end Json
end Floodgate
