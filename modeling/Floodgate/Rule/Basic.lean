import Floodgate.Resource.Basic
import Floodgate.Rule.Override

/-!
# Rules

A limit rule bounds the requests of a resource, per second and in flight. A degrade rule says when
the breaker of a resource trips, how long it stays open, and how traffic resumes. Times are in
milliseconds.

Rules are compared as a whole to find out whether a document changes anything. A threshold is
compared as a number, so two rules that differ only in the sign of a zero threshold are the same
rule.
-/

set_option autoImplicit false

namespace Floodgate

/-- How much traffic a resource takes. -/
structure LimitRule where
  id : Option Int := none
  resource : Resource
  /-- Requests per second, unlimited if absent. -/
  qps : Option Nat := none
  /-- Requests in flight, unlimited if absent. -/
  concurrency : Option Nat := none
  enabled : Bool := true
  response : ResponseOverride := {}
  deriving DecidableEq, Repr

def LimitRule.isLimiting (r : LimitRule) : Bool := r.qps.isSome || r.concurrency.isSome

/-- When a closed breaker trips. -/
inductive BreakStrategy where
  /-- When the window holds so many errors. -/
  | totalErrors (count : Nat)
  /-- When the errors are such a part of the completed requests. -/
  | errorRatio (ratio : Float)

instance : BEq BreakStrategy where
  beq
    | .totalErrors n, .totalErrors m => n == m
    | .errorRatio x, .errorRatio y => x == y
    | _, _ => false

/-- How an open breaker lets traffic through again. -/
inductive ResumeStrategy where
  /-- All at once. -/
  | immediate
  /-- A share of the requests that grows evenly over a time. -/
  | gradual (windowMs : Nat)
  /-- One request, on whose outcome it depends. -/
  | detective
  deriving DecidableEq, Repr

/-- When the circuit to a resource is broken, and when it is closed again. -/
structure DegradeRule where
  id : Option Int := none
  resource : Resource
  strategy : BreakStrategy
  /-- Completed requests without which the breaker does not trip. -/
  minRequests : Nat := 0
  monitorMs : Nat := 10000
  breakMs : Nat := 5000
  resume : ResumeStrategy := .immediate
  enabled : Bool := true
  response : ResponseOverride := {}
  deriving BEq

/-- What the two kinds of rules share: at most one id, one resource, and a comparison. -/
class Rule (R : Type) extends BEq R where
  id : R → Option Int
  resource : R → Resource
  enabled : R → Bool

instance : Rule LimitRule where
  id := LimitRule.id
  resource := LimitRule.resource
  enabled := LimitRule.enabled

instance : Rule DegradeRule where
  id := DegradeRule.id
  resource := DegradeRule.resource
  enabled := DegradeRule.enabled

end Floodgate
