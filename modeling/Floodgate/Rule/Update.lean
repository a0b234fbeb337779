import Floodgate.Rule.Basic

/-!
# Changes of rules

A document either puts a rule in force or takes one out of force. A rule to be removed is named by
its id; where the id is absent or names no rule, by its resource.
-/

set_option autoImplicit false

namespace Floodgate

/-- A change to the rules of one kind. -/
inductive RuleUpdate (R : Type) where
  /-- Puts a rule in force, in place of any on its resource or of its id. -/
  | upsert (rule : R)
  | delete (id : Option Int) (resource : Option Resource)

/-- A change to the rules of either kind. -/
inductive RuleChange where
  | rateLimit (update : RuleUpdate LimitRule)
  | degrade (update : RuleUpdate DegradeRule)

end Floodgate
