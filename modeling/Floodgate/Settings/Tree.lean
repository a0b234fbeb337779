import Floodgate.Settings.Spelling

/-!
# The tree of what is set

Sources of settings lay their values into one tree, later sources over earlier ones. Names are the
same in upper and lower case. A name with points or brackets in it is a path into the tree, unless
it is no well formed path; then it is a name like any other.
-/

set_option autoImplicit false

namespace Floodgate

/-- A value as a source sets it. -/
inductive Setting where
  | null
  | bool (b : Bool)
  | int (i : Int)
  | real (x : Float)
  | text (s : String)
  | list (items : List Setting)
  | table (members : List (String × Setting))

namespace Setting

instance : Inhabited Setting := ⟨null⟩

/-- The table without members. -/
def empty : Setting := table []

/-- The members of a table; any other value has none. -/
def members : Setting → List (String × Setting)
  | table ms => ms
  | _ => []

/-- A member of a table. -/
def get? (s : Setting) (name : String) : Option Setting := s.members.lookup name

/-- Sets a member. What is no table becomes one. -/
def put (s : Setting) (name : String) (value : Setting) : Setting :=
  table ((name, value) :: s.members.filter fun m => m.1 ≠ name)

/-- The items of a list; any other value has none. -/
def items : Setting → List Setting
  | list xs => xs
  | _ => []

/-- The item at a place, `null` beyond the end. -/
def item (s : Setting) (place : Nat) : Setting := s.items[place]?.getD null

/-- Sets an item. What is no list becomes one, and a list that is too short is filled up with
`null`. -/
def putItem (s : Setting) (place : Nat) (value : Setting) : Setting :=
  list ((s.items ++ List.replicate (place + 1 - s.items.length) null).set place value)

/-- The place that an index stands for. A negative one counts from the end. -/
def place (s : Setting) (index : Int) : Nat :=
  (if index < 0 then s.items.length + index else index).toNat

mutual

/-- Lays a value over a member. Of two tables the members are laid over each other. -/
def lay (under : Setting) (name : String) : Setting → Setting
  | table ms =>
    let key := name.toLower
    under.put key (layAll ((under.get? key).getD empty) ms)
  | value => under.put name.toLower value

/-- Lays members over a table, one after another. -/
def layAll (under : Setting) : List (String × Setting) → Setting
  | [] => under
  | (name, value) :: rest => layAll (under.lay name value) rest

end

/-! ## Paths -/

/-- A step of a path: to a member of a table, or to an item of a list. -/
inductive Step where
  | member (name : String)
  | item (index : Int)
  deriving DecidableEq

/-- Lays a value where a path leads. What lies on the way becomes a table or a list as the path
needs it. An item that the path ends at is replaced. -/
def layAt (under : Setting) (path : List Step) (value : Setting) : Setting :=
  match path with
  | [] => value
  | [.member name] => under.lay name value
  | .member name :: rest =>
    let key := name.toLower
    under.put key (layAt ((under.get? key).getD null) rest value)
  | .item index :: rest =>
    let place := under.place index
    under.putItem place (layAt (under.item place) rest value)

/-- Whether a character may stand in a name of a path. -/
def isNameChar (c : Char) : Bool := c.isAlphanum || c = '_' || c = '-' || c = ' '

/-- Whether a character may stand around an index. -/
def isGap (c : Char) : Bool := c = ' ' || c = '\t'

/-- Reads an index up to its closing bracket, and gives what follows the bracket. -/
def index? (cs : List Char) : Option (Int × List Char) := do
  let cs := cs.dropWhile isGap
  let start := match cs with
    | '-' :: _ => 1
    | _ => 0
  let length := start + ((cs.drop start).takeWhile Char.isDigit).length
  let index ← Spelling.integer? (String.ofList (cs.take length))
  match (cs.drop length).dropWhile isGap with
  | ']' :: rest => some (index, rest)
  | _ => none

/-- Reads the steps of a path after the first, at most `fuel` of them. -/
def steps? : Nat → List Char → Option (List Step)
  | _, [] => some []
  | 0, _ => none
  | fuel + 1, '.' :: cs =>
    let name := cs.takeWhile isNameChar
    if name.isEmpty then none
    else (steps? fuel (cs.drop name.length)).map (.member (String.ofList name) :: ·)
  | fuel + 1, '[' :: cs => do
    let (index, rest) ← index? cs
    return .item index :: (← steps? fuel rest)
  | _, _ => none

/-- The path that a name spells, names being divided by points and indices standing in brackets. A
name that spells none is a single step. -/
def pathOf (name : String) : List Step :=
  match steps? (name.length + 1) ('.' :: name.toList) with
  | some path => path
  | none => [.member name]

end Setting
end Floodgate
