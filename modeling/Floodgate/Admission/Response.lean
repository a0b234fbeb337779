import Floodgate.Rule.Override

/-!
# Responses to denied requests

A denied request is answered with a status, a content type and a body. The rule that denied it may
set any of them. For a limit, a matched rule that sets nothing leaves it to the rule of the global
resource.
-/

set_option autoImplicit false

namespace Floodgate

structure DenyResponse where
  status : Nat
  contentType : String
  body : String
  deriving DecidableEq, Repr

namespace DenyResponse

/-- The answer to a request over a limit, if no rule sets another. -/
def tooManyRequests : DenyResponse where
  status := 429
  contentType := "application/json"
  body := "\x7b\"code\":429,\"message\":\"Too Many Requests\"\x7d"

/-- The answer to a request turned away by a breaker, if no rule sets another. -/
def serviceUnavailable : DenyResponse where
  status := 503
  contentType := "application/json"
  body := "\x7b\"code\":503,\"message\":\"Service Unavailable\"\x7d"

/-- The response with the parts that a rule sets. -/
def overriddenBy (r : DenyResponse) (o : ResponseOverride) : DenyResponse where
  status := o.status.getD r.status
  contentType := o.contentType.getD r.contentType
  body := o.body.getD r.body

def rateLimited (matched : ResponseOverride) (global : Option ResponseOverride) : DenyResponse :=
  tooManyRequests.overriddenBy (if matched.isEmpty then global.getD {} else matched)

def circuitBroken (matched : ResponseOverride) : DenyResponse :=
  serviceUnavailable.overriddenBy matched

end DenyResponse
end Floodgate
