import Floodgate.Json.Record
import Floodgate.Rule.Target

/-!
# Documents of limit rules

`ofJson?` finds the fields of a document and their types, and fails without a reason; `toUpdate`
decides what the fields mean together, and names what is wrong.
-/

set_option autoImplicit false

namespace Floodgate

structure LimitDocument where
  id : Option Int
  key : Option String
  type : Option Nat
  service : Option String
  app : Option String
  path : Option String
  qps : Option Int
  concurrency : Option Int
  enabled : Bool
  deleted : Bool
  responseType : Option String
  responseContent : Option String
  responseStatus : Option Nat

namespace LimitDocument

/-- The fields in the order of the array form. -/
def fields : List Json.Field :=
  [{ name := "id" }, { name := "resourceId" }, { name := "type" },
    { name := "service", others := ["resource"] }, { name := "app" }, { name := "path" },
    { name := "qps" }, { name := "concurrents" }, { name := "enable" }, { name := "isDeleted" },
    { name := "responseType" }, { name := "responseContent" }, { name := "responseStatus" }]

def ofJson? (j : Json) : Option LimitDocument := do
  let r ← Json.Record.ofJson? fields j
  return {
    id := ← r.optional "id" Json.signed?
    key := ← r.optional "resourceId" Json.string?
    type := ← r.optional "type" Json.unsigned8?
    service := ← r.optional "service" Json.string?
    app := ← r.optional "app" Json.string?
    path := ← r.optional "path" Json.string?
    qps := ← r.optional "qps" Json.signed?
    concurrency := ← r.optional "concurrents" Json.signed?
    enabled := ← r.defaulted "enable" true Json.flag?
    deleted := ← r.defaulted "isDeleted" false Json.flag?
    responseType := ← r.optional "responseType" Json.string?
    responseContent := ← r.optional "responseContent" Json.string?
    responseStatus := ← r.optional "responseStatus" Json.unsigned16? }

/-- The scopes by their numbers in a limit document. -/
def scopeOf? : Nat → Option Scope
  | 1 => some .global
  | 2 => some .serviceDefault
  | 3 => some .service
  | 4 => some .api
  | _ => none

def target (d : LimitDocument) : Target where
  key := d.key
  scope := d.type.bind scopeOf?
  app := d.app
  service := d.service
  path := d.path

def toUpdate (d : LimitDocument) : Except Malformed (RuleUpdate LimitRule) :=
  if d.deleted then d.target.deletion d.id
  else do
    let resource ← d.target.resolve
    return .upsert {
      id := d.id
      resource := resource
      qps := ceiling? d.qps
      concurrency := ceiling? d.concurrency
      enabled := d.enabled
      response := .ofGiven d.responseStatus d.responseType d.responseContent }

end LimitDocument

end Floodgate
