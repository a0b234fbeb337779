import Floodgate.Text.Blank

/-!
# Responses set by a rule

A rule may say with what status, content type and body its denials are answered. What it leaves open
is filled from the defaults.
-/

set_option autoImplicit false

namespace Floodgate

/-- The parts of a response that a rule sets. -/
structure ResponseOverride where
  status : Option Nat := none
  contentType : Option String := none
  body : Option String := none
  deriving DecidableEq, Repr

namespace ResponseOverride

/-- The parts as given, without a blank content type and without an empty body. -/
def ofGiven (status : Option Nat) (contentType body : Option String) : ResponseOverride where
  status := status
  contentType := contentType.filter fun t => !Text.isAllBlank t
  body := body.filter fun b => b ≠ ""

def isEmpty (o : ResponseOverride) : Bool :=
  o.status.isNone && o.contentType.isNone && o.body.isNone

end ResponseOverride
end Floodgate
