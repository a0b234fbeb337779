import Floodgate.Json.Token

/-!
# Reading JSON text

A text of JSON is one value. The tokens are taken one after another by `Reading.step`; what is still
open is kept as a list of frames, innermost first, so reading needs no recursion and no limit on the
nesting. The text is refused at the first token that cannot stand where it stands.
-/

set_option autoImplicit false

namespace Floodgate
namespace Json

/-- An array or object whose end has not been read. -/
inductive Frame where
  /-- An array: its items so far, last first. -/
  | items (done : List Json)
  /-- An object: its members so far, last first, and the name whose value is being read. -/
  | members (done : List (Option String × Json)) (name : Option String)

/-- What may come next. -/
inductive Stage where
  | value
  /-- A value, or the end of an array without items. -/
  | firstItem
  /-- The name of a member, or the end of the object if it has no members yet. -/
  | name (done : List (Option String × Json))
  /-- A colon after the name of a member. -/
  | colon (done : List (Option String × Json)) (name : Option String)
  /-- Whatever may follow a value that has been read. -/
  | complete (j : Json)

/-- A text read so far. -/
structure Reading where
  frames : List Frame
  stage : Stage

namespace Reading

def start : Reading := { frames := [], stage := .value }

/-- An object with its members, last first. A name that denotes nothing makes it unreadable. -/
def object (done : List (Option String × Json)) : Json :=
  let members := done.reverse.filterMap fun m => m.1.map fun k => (k, m.2)
  if members.length = done.length then .obj members else .unreadable

def begin? (r : Reading) : Token → Option Reading
  | .openItems => some { frames := .items [] :: r.frames, stage := .firstItem }
  | .openMembers => some { r with stage := .name [] }
  | .text (some s) => some { r with stage := .complete (.str s) }
  | .text none => some { r with stage := .complete .unreadable }
  | .scalar j => some { r with stage := .complete j }
  | _ => none

def step (r : Reading) (t : Token) : Option Reading :=
  match r.stage, t, r.frames with
  | .firstItem, .closeItems, .items done :: rest =>
    some { frames := rest, stage := .complete (.arr done.reverse) }
  | .value, t, _ | .firstItem, t, _ => r.begin? t
  | .name done, .text k, _ => some { r with stage := .colon done k }
  | .name [], .closeMembers, _ => some { r with stage := .complete (.obj []) }
  | .colon done k, .colon, frames => some { frames := .members done k :: frames, stage := .value }
  | .complete j, .comma, .items done :: rest =>
    some { frames := .items (j :: done) :: rest, stage := .value }
  | .complete j, .closeItems, .items done :: rest =>
    some { frames := rest, stage := .complete (.arr (j :: done).reverse) }
  | .complete j, .comma, .members done k :: rest =>
    some { frames := rest, stage := .name ((k, j) :: done) }
  | .complete j, .closeMembers, .members done k :: rest =>
    some { frames := rest, stage := .complete (object ((k, j) :: done)) }
  | _, _, _ => none

/-- The value, if the text is complete. -/
def result? (r : Reading) : Option Json :=
  match r.stage, r.frames with
  | .complete j, [] => some j
  | _, _ => none

end Reading

/-- What a text of JSON says, if it is one. -/
def read? (text : String) : Option Json := do
  let r ← (← tokens? text).foldlM Reading.step Reading.start
  r.result?

end Json
end Floodgate
