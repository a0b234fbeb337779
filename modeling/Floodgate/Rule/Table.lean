import Floodgate.Rule.Update
import Floodgate.Table

/-!
# Tables of rules

The rules of one kind, found by resource or by id. There is at most one rule for a resource and at
most one of an id; a rule whose id is already in use elsewhere takes the place of the rule there.

A rule in a table is an `Edition`: the rule with the serial number of the change that put it
there. Two editions are one object exactly if their numbers are the same, whatever the rules say.
A rule that is put in force again unchanged keeps its edition.
-/

set_option autoImplicit false

namespace Floodgate

/-- A rule as put in force by one change. -/
structure Edition (R : Type) where
  /-- The number of the change, by which editions are told apart. -/
  serial : Nat
  rule : R

structure RuleTable (R : Type) where
  byResource : Table Resource (Edition R) := .empty
  /-- Where the rules that have an id are found. -/
  byId : Table Int Resource := .empty

namespace RuleTable

variable {R : Type}

def empty : RuleTable R := {}

instance : Inhabited (RuleTable R) := ⟨empty⟩

def get? (t : RuleTable R) (r : Resource) : Option (Edition R) := t.byResource.get? r

def toList (t : RuleTable R) : List (Edition R) := t.byResource.values

variable [Rule R]

/-- Removes the rule for a resource; nothing, if there is none. -/
def remove? (t : RuleTable R) (r : Resource) : Option (RuleTable R) :=
  (t.get? r).map fun e => {
    byResource := t.byResource.erase r
    byId := match Rule.id e.rule with
      | some id => t.byId.erase id
      | none => t.byId }

def remove (t : RuleTable R) (r : Resource) : RuleTable R := (t.remove? r).getD t

/-- Removes the rule of an id if it is for another resource. -/
def removeElsewhere (t : RuleTable R) (id : Option Int) (r : Resource) : RuleTable R :=
  match id.bind t.byId.get? with
  | some previous => if previous = r then t else t.remove previous
  | none => t

/-- Puts a rule in force; nothing, if it is in force already. -/
def upsert? (t : RuleTable R) (serial : Nat) (rule : R) : Option (RuleTable R) :=
  let r := Rule.resource rule
  if (t.get? r).any fun e => e.rule == rule then none
  else
    let cleared := (t.removeElsewhere (Rule.id rule) r).remove r
    some {
      byResource := cleared.byResource.insert r { serial, rule }
      byId := match Rule.id rule with
        | some id => cleared.byId.insert id r
        | none => cleared.byId }

/-- Makes a change; nothing, if it changes nothing. -/
def change? (t : RuleTable R) (serial : Nat) : RuleUpdate R → Option (RuleTable R)
  | .upsert rule => t.upsert? serial rule
  | .delete id resource => ((id.bind t.byId.get?).orElse fun _ => resource).bind t.remove?

/-- The first enabled rule for one of some resources. -/
def firstEnabled? (t : RuleTable R) (candidates : List Resource) : Option (Edition R) :=
  (candidates.filterMap t.get?).find? fun e => Rule.enabled e.rule

/-- All rules, in the order of their resources. -/
def sorted (t : RuleTable R) : List R :=
  (t.toList.map Edition.rule).mergeSort fun a b => (Rule.resource a).atMost (Rule.resource b)

def enabled? (t : RuleTable R) (r : Resource) : Option (Edition R) :=
  (t.get? r).filter fun e => Rule.enabled e.rule

end RuleTable
end Floodgate
