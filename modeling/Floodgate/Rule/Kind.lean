/-!
# Kinds of rules

There are rules that limit how much traffic a resource takes, and rules that break the circuit to
a resource that fails. Both are delivered as documents; a source says of each document which of
the two it is.
-/

set_option autoImplicit false

namespace Floodgate

inductive RuleKind where
  | rateLimit
  | degrade
  deriving DecidableEq, Repr

namespace RuleKind

def code : RuleKind → String
  | rateLimit => "rateLimit"
  | degrade => "degrade"

def label : RuleKind → String
  | rateLimit => "rate limit"
  | degrade => "degrade"

def all : List RuleKind := [rateLimit, degrade]

end RuleKind
end Floodgate
