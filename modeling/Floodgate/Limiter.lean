import Floodgate.Resource.Candidates
import Floodgate.Rule.Book
import Floodgate.Stats.Store

/-!
# The limiter

A request is held against the most specific enabled limit rule. It first takes a unit of
concurrency; then, if the rule bounds the rate, it must find room in the budget of the present
slot, or the unit goes back. A request without a rule is let through and counted under the global
resource.
-/

set_option autoImplicit false

namespace Floodgate

/-- Which ceiling a request ran into. -/
inductive LimitAxis where
  | concurrency
  | qps
  deriving DecidableEq, Repr

namespace LimitAxis

def code : LimitAxis → String
  | concurrency => "CONCURRENCY"
  | qps => "QPS"

def label : LimitAxis → String
  | concurrency => "concurrency"
  | qps => "qps"

def all : List LimitAxis := [concurrency, qps]

end LimitAxis

/-- What a request that was let through has to give back. -/
structure Lease where
  /-- What the request is counted under. -/
  resource : Resource
  rule : Option LimitRule
  /-- The series its unit of concurrency was taken from. -/
  series : Handle Resource

inductive LimitDecision where
  | allowed (lease : Lease)
  | denied (resource : Resource) (axis : LimitAxis) (rule : LimitRule)

namespace Limiter

/-- The rule a request is held against. -/
def resolve (book : RuleBook) (candidates : List Resource) : Option LimitRule :=
  (book.limits.firstEnabled? candidates).map Edition.rule

/-- The requests that may start in a slot under a ceiling per second, rounded up. -/
def slotBudget (g : Grid) (qps : Nat) : Nat :=
  if g.slotMs = 1000 then qps else Word.divCeil (Word.mulSaturating qps g.slotMs) 1000

def deny (stats : StatStore) (resource : Resource) (axis : LimitAxis) (rule : LimitRule)
    (now : Nat) : LimitDecision × StatStore :=
  (.denied resource axis rule, stats.incr resource .blockedByLimiter now)

/-- Lets a request through that no rule applies to. -/
def permitUnlimited (stats : StatStore) (now : Nat) : LimitDecision × StatStore :=
  let (h, stats) := stats.acquireUnbounded .global now
  let stats := stats.incr .global .started now
  (.allowed { resource := .global, rule := none, series := h }, stats.observe h now)

/-- Holds a request against a rule. -/
def permitUnder (rule : LimitRule) (stats : StatStore) (candidates : List Resource) (now : Nat) :
    LimitDecision × StatStore :=
  let resource := rule.resource.bind candidates
  match stats.acquire resource rule.concurrency now with
  | (none, stats) => deny stats resource .concurrency rule now
  | (some h, stats) =>
    let (started, stats) :=
      match rule.qps with
      | some qps => stats.tryStart resource (slotBudget stats.grid qps) now
      | none => (true, stats.incr resource .started now)
    if started then
      (.allowed { resource, rule := some rule, series := h }, stats.observe h now)
    else deny (stats.release h) resource .qps rule now

def permit (book : RuleBook) (stats : StatStore) (candidates : List Resource) (now : Nat) :
    LimitDecision × StatStore :=
  match resolve book candidates with
  | none => permitUnlimited stats now
  | some rule => permitUnder rule stats candidates now

def release (stats : StatStore) (lease : Lease) : StatStore := stats.release lease.series

end Limiter
end Floodgate
