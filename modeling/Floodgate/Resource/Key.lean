import Floodgate.Json.Basic
import Floodgate.Resource.Basic

/-!
# Keys

In storage and on the wire a resource is one text of five fields, application, address, node,
service and path, with a caret between them. The last field may hold carets itself. The global
resource is written in the node field; the address field is always empty, and no other node is
accepted.
-/

set_option autoImplicit false

namespace Floodgate
namespace Resource

/-- Stands between the fields of a key. -/
def separator : Char := '^'

/-- The text of five fields, the address being empty. -/
def joinFields (app node service path : String) : String :=
  app ++ "^^" ++ node ++ "^" ++ service ++ "^" ++ path

def key : Resource → String
  | .global => joinFields "" globalName "" ""
  | .serviceDefault => joinFields "" "" serviceDefaultName ""
  | .service s => joinFields "" "" s ""
  | .api app s p => joinFields (app.getD "") "" s p

/-- The text before the first separator and the text after it. -/
def cut? : List Char → Option (List Char × List Char)
  | [] => none
  | c :: cs => if c = separator then some ([], cs) else (cut? cs).map fun r => (c :: r.1, r.2)

def ofKey? (text : String) : Option Resource := do
  let (appField, rest) ← cut? text.toList
  let (addressField, rest) ← cut? rest
  let (nodeField, rest) ← cut? rest
  let (serviceField, pathField) ← cut? rest
  let appText := String.ofList appField
  let serviceText := String.ofList serviceField
  let pathText := String.ofList pathField
  if !Text.isAllBlank (String.ofList addressField) then
    none
  else
    match Text.nonBlank? (String.ofList nodeField) with
    | some node =>
      if node = globalName && Text.isAllBlank appText && Text.isAllBlank serviceText &&
          Text.isAllBlank pathText then
        some .global
      else
        none
    | none =>
      if Text.nonBlank? serviceText = some globalName then none
      else ofParts? (some appText) (some serviceText) (some pathText)

/-! ## In JSON -/

inductive KeyError where
  | notText
  /-- It is a text, but no key. -/
  | invalid (text : String)
  deriving DecidableEq, Repr

/-- The wording of an error, where it is the library's own. -/
def KeyError.message? : KeyError → Option String
  | notText => none
  | invalid text => some ("invalid resource id: " ++ text)

/-- A resource as a JSON value is its key. -/
def ofJson (j : Json) : Except KeyError Resource :=
  match j with
  | .str text =>
    match ofKey? text with
    | some r => .ok r
    | none => .error (.invalid text)
  | _ => .error .notText

end Resource
end Floodgate
