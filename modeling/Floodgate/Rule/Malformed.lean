import Floodgate.Decimal.Layout
import Floodgate.Resource.Basic
import Floodgate.Rule.Kind
import Floodgate.Text.Quoted

/-!
# Why a document is no rule

A document is refused because it does not have the form of a rule document at all, or because what
it says makes no rule. The causes of the second kind are listed here, each with its wording.
-/

set_option autoImplicit false

namespace Floodgate

/-- What is wrong with the contents of a rule document. -/
inductive Malformed where
  | invalidKey (key : String)
  | unknownType
  | needsService
  | needsServiceAndPath
  | deletesNothing
  | targetsGlobal
  | ratioOutside (ratio : Float)
  | missingRatio
  | missingCount
  | unknownStrategy (code : Nat)
  | missingStrategy
  | missingRecoveryWindow
  | unknownRecovery (code : Nat)
  | missingStatInterval
  | missingTimeWindow

def Malformed.reason : Malformed → String
  | invalidKey key => "invalid resourceId " ++ Text.quoted key
  | unknownType => "missing or unknown type"
  | needsService => "type Service needs a service"
  | needsServiceAndPath => "type Api needs a service and a path"
  | deletesNothing => "deletion needs an id or a resource"
  | targetsGlobal => "degrade rules cannot target the global resource"
  | ratioOutside ratio => "ratioThreshold " ++ Decimal.plain.render ratio ++ " outside (0, 1]"
  | missingRatio => "ratio strategy needs ratioThreshold"
  | missingCount => "count strategy needs a positive exceptionCount"
  | unknownStrategy code => "unknown strategy " ++ toString code
  | missingStrategy => "missing strategy"
  | missingRecoveryWindow => "gradual recovery needs a positive recoveryTimeWindow"
  | unknownRecovery code => "unknown recoveryStrategy " ++ toString code
  | missingStatInterval => "statInterval must be positive"
  | missingTimeWindow => "timeWindow must be positive"

inductive RuleError where
  /-- It does not have the form of a rule document. -/
  | unreadable
  /-- It says something that makes no rule. -/
  | malformed (kind : RuleKind) (cause : Malformed)

/-- The wording of a refusal, where it is the library's own. -/
def RuleError.message? : RuleError → Option String
  | unreadable => none
  | malformed kind cause => some ("Malformed " ++ kind.label ++ " rule: " ++ cause.reason)

end Floodgate
