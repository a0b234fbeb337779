import Floodgate.Rule.Table

/-!
# The rule book

All rules in force, of both kinds, with a version that goes up by one at every change. A book is a
value: who holds an older one sees the rules as they were. The version after a change is also the
serial number of the edition that the change put in force.
-/

set_option autoImplicit false

namespace Floodgate

structure RuleBook where
  /-- The number of changes so far. -/
  version : Nat := 0
  limits : RuleTable LimitRule := .empty
  degrades : RuleTable DegradeRule := .empty

namespace RuleBook

def empty : RuleBook := {}

instance : Inhabited RuleBook := ⟨empty⟩

/-- Changes the limit rules; nothing, if that changes nothing. -/
def changeLimit? (b : RuleBook) (u : RuleUpdate LimitRule) : Option RuleBook :=
  (b.limits.change? (b.version + 1) u).map fun t => { b with version := b.version + 1, limits := t }

/-- Changes the degrade rules; nothing, if that changes nothing. -/
def changeDegrade? (b : RuleBook) (u : RuleUpdate DegradeRule) : Option RuleBook :=
  (b.degrades.change? (b.version + 1) u).map fun t =>
    { b with version := b.version + 1, degrades := t }

/-- Makes a change; nothing, if it changes nothing. -/
def change? (b : RuleBook) : RuleChange → Option RuleBook
  | .rateLimit u => b.changeLimit? u
  | .degrade u => b.changeDegrade? u

def defaultDegrade? (b : RuleBook) : Option (Edition DegradeRule) :=
  b.degrades.enabled? .serviceDefault

end RuleBook
end Floodgate
