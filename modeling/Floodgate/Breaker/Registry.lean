import Floodgate.Breaker.Basic
import Floodgate.Resource.Candidates
import Floodgate.Rule.Book
import Floodgate.Rule.Kind

/-!
# The breakers in service

Every enabled degrade rule has a breaker under its resource, but for the rule of the service
default: that one has a breaker for each service, made at the service's first request. `reconcile`
brings the breakers in line with a new rule book. A breaker whose rule is gone leaves the
registry; requests that it let through still report to it.
-/

set_option autoImplicit false

namespace Floodgate

structure Registry where
  breakers : Roster Resource Breaker := .empty

/-- What the breakers say to a request. -/
inductive Verdict where
  | unrestricted
  /-- A breaker lets it through, possibly as its probe. -/
  | permit (breaker : Handle Resource) (probe : Bool)
  /-- A breaker in some state turns it away. -/
  | reject (breaker : Handle Resource) (state : BreakerState)
  deriving DecidableEq

def Verdict.isAdmitted : Verdict → Bool
  | reject .. => false
  | _ => true

namespace Registry

def get? (g : Registry) (r : Resource) : Option Breaker := g.breakers.current? r

/-- The breaker that a handle names, in the registry or not. -/
def held? (g : Registry) (h : Handle Resource) : Option Breaker := g.breakers.get? h

def size (g : Registry) : Nat := g.breakers.size

/-! ## Following the rules -/

/-- Whether a breaker runs on the rule of the service default. -/
def isDerived (r : Resource) (b : Breaker) : Bool := b.rule.resource != r

/-- The rule that a breaker goes on with under a new rule book, if it stays in service. A rule of
the resource itself replaces a breaker that ran on the service default. -/
def ruleFor? (book : RuleBook) (r : Resource) (b : Breaker) : Option (Edition DegradeRule) :=
  match book.degrades.enabled? r with
  | some e => if isDerived r b then none else some e
  | none => if isDerived r b && r.scope = .service then book.defaultDegrade? else none

/-- Takes out of service the breakers whose rule is gone. -/
def dropStale (g : Registry) (book : RuleBook) : Registry :=
  { breakers := g.breakers.retain fun r b => (ruleFor? book r b).isSome }

/-- Shows the breakers their rules in a rule book. -/
def refresh (g : Registry) (book : RuleBook) : Registry :=
  { breakers := g.breakers.modifyCurrent fun r b =>
      match ruleFor? book r b with
      | some e => (b.update e book.version).2
      | none => b }

/-- Makes the breaker for a rule, unless its resource has one. -/
def addFor (version : Nat) (g : Registry) (e : Edition DegradeRule) : Registry :=
  let r := e.rule.resource
  if !e.rule.enabled || r.scope = .serviceDefault || (g.get? r).isSome then g
  else { breakers := g.breakers.install r ((Breaker.new r e).update e version).2 }

def reconcile (g : Registry) (book : RuleBook) : Registry :=
  book.degrades.toList.foldl (addFor book.version) ((g.dropStale book).refresh book)

/-- The breakers for a rule book, before any request. -/
def ofBook (book : RuleBook) : Registry := ({} : Registry).reconcile book

/-- Follows the degrade rules. -/
def onRulesChanged (kind : RuleKind) (book : RuleBook) (g : Registry) : Registry :=
  match kind with
  | .degrade => g.reconcile book
  | .rateLimit => g

/-! ## Requests -/

/-- The breaker for a request, made now if need be and up to date with the rules. -/
def lookup (g : Registry) (book : RuleBook) (candidates : List Resource) :
    Option (Handle Resource) × Registry :=
  match book.degrades.firstEnabled? candidates with
  | none => (none, g)
  | some e =>
    let r := e.rule.resource.bind candidates
    let made :=
      if (g.get? r).isSome then g.breakers else g.breakers.install r (Breaker.new r e)
    match made.handle? r with
    | some h => (some h, { breakers := made.modify h fun b => (b.update e book.version).2 })
    | none => (none, { breakers := made })

/-- Decides a request by one breaker. A rejection is counted under the breaker's resource. -/
def permitBy (g : Registry) (h : Handle Resource) (b : Breaker) (stats : StatStore) (now : Nat)
    (draw : Float) : Verdict × Registry × StatStore :=
  let (decision, b', stats) := b.permit stats now draw
  let g := { breakers := g.breakers.modify h fun _ => b' }
  match decision with
  | .permit => (.permit h false, g, stats)
  | .probe => (.permit h true, g, stats)
  | .reject => (.reject h b'.phase.state, g, stats.incr b'.resource .blockedByBreaker now)

/-- Decides a request by the breaker for the most specific enabled rule. -/
def permit (g : Registry) (book : RuleBook) (stats : StatStore) (candidates : List Resource)
    (now : Nat) (draw : Float) : Verdict × Registry × StatStore :=
  let (h, g) := g.lookup book candidates
  match h.bind fun h => (g.held? h).map fun b => (h, b) with
  | some (h, b) => g.permitBy h b stats now draw
  | none => (.unrestricted, g, stats)

def onProbeOutcome (g : Registry) (h : Handle Resource) (success : Bool) (stats : StatStore)
    (now : Nat) : Registry × StatStore :=
  match g.held? h with
  | some b =>
    let (b', stats) := b.onProbeOutcome success stats now
    ({ breakers := g.breakers.modify h fun _ => b' }, stats)
  | none => (g, stats)

end Registry
end Floodgate
