import Floodgate.Resource.Key
import Floodgate.Rule.Malformed
import Floodgate.Rule.Update
import Floodgate.Word

/-!
# What rule documents have in common

A document names its resource by a key, or by its type and up to three names. One that is marked as
deleted needs no more than to say which rule it deletes. Ceilings of zero or less mean no ceiling.
Times are given in seconds and kept in milliseconds, no longer than a 64-bit word can say.
-/

set_option autoImplicit false

namespace Floodgate

/-- How a document names its resource. -/
structure Target where
  /-- The key of the resource; if it is not blank, it decides. -/
  key : Option String
  scope : Option Scope
  app : Option String
  service : Option String
  path : Option String

/-- A resource, provided that it has the scope that was asked for. -/
def Target.withScope (scope : Scope) (otherwise : Malformed) :
    Option Resource → Except Malformed Resource
  | some r => if r.scope = scope then .ok r else .error otherwise
  | none => .error otherwise

def Target.resolve (t : Target) : Except Malformed Resource :=
  match t.key.filter fun k => !Text.isAllBlank k with
  | some key =>
    match Resource.ofKey? key with
    | some r => .ok r
    | none => .error (.invalidKey key)
  | none =>
    match t.scope with
    | none => .error .unknownType
    | some .global => .ok .global
    | some .serviceDefault => .ok .serviceDefault
    | some .service =>
      withScope .service .needsService (Resource.ofParts? none t.service none)
    | some .api =>
      withScope .api .needsServiceAndPath (Resource.ofParts? t.app t.service t.path)

/-- What a document that is marked as deleted deletes. -/
def Target.deletion {R : Type} (t : Target) (id : Option Int) : Except Malformed (RuleUpdate R) :=
  match id, t.resolve with
  | none, .error _ => .error .deletesNothing
  | id, .ok r => .ok (.delete id (some r))
  | id, .error _ => .ok (.delete id none)

/-- A ceiling, if it limits anything. -/
def ceiling? : Option Int → Option Nat
  | some i => if 0 < i then some i.toNat else none
  | none => none

def millis (seconds : Nat) : Nat := Word.mulSaturating seconds 1000

/-- A number of seconds in milliseconds, if it is given and positive. -/
def positiveMillis (seconds : Option Nat) (otherwise : Malformed) : Except Malformed Nat :=
  match seconds with
  | some s => if 0 < s then .ok (millis s) else .error otherwise
  | none => .error otherwise

end Floodgate
