import Floodgate.Rule.DegradeDocument
import Floodgate.Rule.Kind
import Floodgate.Rule.LimitDocument

/-!
# Rule documents

A source delivers rules as JSON values, and says of each which kind of rule it describes.
-/

set_option autoImplicit false

namespace Floodgate

/-- A rule document as a source delivers it. -/
structure RawRule where
  kind : RuleKind
  document : Json

def RawRule.parse (raw : RawRule) : Except RuleError RuleChange :=
  match raw.kind with
  | .rateLimit =>
    match LimitDocument.ofJson? raw.document with
    | none => .error .unreadable
    | some d => (d.toUpdate.map RuleChange.rateLimit).mapError (RuleError.malformed .rateLimit)
  | .degrade =>
    match DegradeDocument.ofJson? raw.document with
    | none => .error .unreadable
    | some d => (d.toUpdate.map RuleChange.degrade).mapError (RuleError.malformed .degrade)

end Floodgate
