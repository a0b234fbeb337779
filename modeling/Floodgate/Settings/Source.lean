import Floodgate.Json.Reader
import Floodgate.Json.Record
import Floodgate.Settings.Tree

/-!
# Where settings come from

A settings file is a JSON object. A variable of the environment is a setting if its name begins as
it should; the rest of the name is the path, with two underscores for a point, and its text is taken
for a truth value or a number where it spells one.
-/

set_option autoImplicit false

namespace Floodgate
namespace Setting

mutual

/-- A JSON value as a setting. An integer beyond 63 bits is a real number. -/
def ofJson : Json → Setting
  | .null => null
  | .bool b => bool b
  | .int i => if i < Word.signedSize then int i else real (Json.floatOfInt i)
  | .real x => real x.toFloat
  | .str s => text s
  | .arr xs => list (ofItems xs)
  | .obj ms => table (ofMembers ms)
  | .unreadable => null

/-- The items of a JSON array as settings. -/
def ofItems : List Json → List Setting
  | [] => []
  | j :: rest => ofJson j :: ofItems rest

/-- The members of a JSON object as settings. -/
def ofMembers : List (String × Json) → List (String × Setting)
  | [] => []
  | (k, j) :: rest => (k, ofJson j) :: ofMembers rest

end

/-- What a settings file sets. -/
def ofFile? (content : String) : Option (List (String × Setting)) := do
  match ← (← Json.read? content).value? 0 with
  | .obj ms => return ofMembers ms
  | _ => none

/-- With what the names of environment variables begin. -/
def environmentStart : String := "turnstile_"

/-- What a variable of the environment is set to. -/
def ofVariable (value : String) : Setting :=
  let lower := value.toLower
  if lower = "true" then bool true
  else if lower = "false" then bool false
  else
    match Spelling.integer? value with
    | some i => int i
    | none =>
      match Spelling.real? value with
      | some x => real x
      | none => text value

/-- The text after a beginning, if it has that beginning. -/
def afterStart? : List Char → List Char → Option (List Char)
  | [], cs => some cs
  | s :: ss, c :: cs => if s = c then afterStart? ss cs else none
  | _ :: _, [] => none

/-- Writes a point for each two underscores. -/
def pointed : List Char → List Char
  | '_' :: '_' :: cs => '.' :: pointed cs
  | c :: cs => c :: pointed cs
  | [] => []

/-- The lower case of a character, as far as it is a letter of ASCII. Besides the capital letters of
ASCII the sign for kelvin has one. -/
def lowered (c : Char) : Char := if c = '\u212a' then 'k' else c.toLower

/-- The setting that a variable of the environment is for, if its name begins as it should. -/
def variablePath? (name : String) : Option String :=
  (afterStart? environmentStart.toList (name.toList.map lowered)).map fun cs =>
    String.ofList (pointed cs)

/-- All that is set by a file and by the environment, in that order. -/
def ofSources (file : List (String × Setting)) (environment : List (String × String)) : Setting :=
  let named := environment.filterMap fun v =>
    (variablePath? v.1).map fun name => (name, ofVariable v.2)
  (file ++ named).foldl (fun under s => under.layAt (pathOf s.1) s.2) empty

end Setting
end Floodgate
