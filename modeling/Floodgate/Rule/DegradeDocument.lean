import Floodgate.Json.Record
import Floodgate.Rule.Target

/-!
# Documents of degrade rules

`ofJson?` finds the fields of a document and their types, and fails without a reason; `toUpdate`
decides what the fields mean together, and names the first thing that is wrong: the resource, the
strategy, the recovery, and the two times, in this order.
-/

set_option autoImplicit false

namespace Floodgate

structure DegradeDocument where
  id : Option Int
  key : Option String
  type : Option Nat
  service : Option String
  app : Option String
  path : Option String
  strategy : Option Nat
  ratioThreshold : Option Float
  exceptionCount : Option Nat
  minRequestCount : Option Nat
  /-- How long the breaker stays open, in seconds. -/
  timeWindow : Option Nat
  /-- How far it looks back, in seconds. -/
  statInterval : Option Nat
  recoveryStrategy : Option Nat
  /-- How long a gradual recovery takes, in seconds. -/
  recoveryTimeWindow : Option Nat
  responseContentType : Option String
  responseContent : Option String
  responseStatus : Option Nat
  enabled : Bool
  deleted : Bool

namespace DegradeDocument

/-- The fields in the order of the array form. -/
def fields : List Json.Field :=
  [{ name := "id" }, { name := "resourceId" }, { name := "type" },
    { name := "service", others := ["resource"] }, { name := "app" }, { name := "path" },
    { name := "strategy" }, { name := "ratioThreshold" }, { name := "exceptionCount" },
    { name := "minRequestCount" }, { name := "timeWindow" }, { name := "statInterval" },
    { name := "recoveryStrategy" }, { name := "recoveryTimeWindow" },
    { name := "responseContentType" }, { name := "responseContent" }, { name := "responseStatus" },
    { name := "enable" }, { name := "isDeleted" }]

def ofJson? (j : Json) : Option DegradeDocument := do
  let r ← Json.Record.ofJson? fields j
  return {
    id := ← r.optional "id" Json.signed?
    key := ← r.optional "resourceId" Json.string?
    type := ← r.optional "type" Json.unsigned8?
    service := ← r.optional "service" Json.string?
    app := ← r.optional "app" Json.string?
    path := ← r.optional "path" Json.string?
    strategy := ← r.optional "strategy" Json.unsigned8?
    ratioThreshold := ← r.optional "ratioThreshold" Json.float?
    exceptionCount := ← r.optional "exceptionCount" Json.unsigned64?
    minRequestCount := ← r.optional "minRequestCount" Json.unsigned64?
    timeWindow := ← r.optional "timeWindow" Json.unsigned64?
    statInterval := ← r.optional "statInterval" Json.unsigned64?
    recoveryStrategy := ← r.optional "recoveryStrategy" Json.unsigned8?
    recoveryTimeWindow := ← r.optional "recoveryTimeWindow" Json.unsigned64?
    responseContentType := ← r.optional "responseContentType" Json.string?
    responseContent := ← r.optional "responseContent" Json.string?
    responseStatus := ← r.optional "responseStatus" Json.unsigned16?
    enabled := ← r.defaulted "enable" true Json.flag?
    deleted := ← r.defaulted "isDeleted" false Json.flag? }

/-- The scopes by their numbers in a degrade document. -/
def scopeOf? : Nat → Option Scope
  | 1 => some .serviceDefault
  | 2 => some .service
  | 3 => some .api
  | _ => none

def target (d : DegradeDocument) : Target where
  key := d.key
  scope := d.type.bind scopeOf?
  app := d.app
  service := d.service
  path := d.path

def breakStrategy (d : DegradeDocument) : Except Malformed BreakStrategy :=
  match d.strategy with
  | some 1 =>
    match d.ratioThreshold with
    | some x => if 0.0 < x ∧ x ≤ 1.0 then .ok (.errorRatio x) else .error (.ratioOutside x)
    | none => .error .missingRatio
  | some 2 =>
    match d.exceptionCount with
    | some n => if 0 < n then .ok (.totalErrors n) else .error .missingCount
    | none => .error .missingCount
  | some other => .error (.unknownStrategy other)
  | none => .error .missingStrategy

def resumeStrategy (d : DegradeDocument) : Except Malformed ResumeStrategy :=
  match d.recoveryStrategy with
  | none | some 1 => .ok .immediate
  | some 2 => .gradual <$> positiveMillis d.recoveryTimeWindow .missingRecoveryWindow
  | some 3 => .ok .detective
  | some other => .error (.unknownRecovery other)

def toUpdate (d : DegradeDocument) : Except Malformed (RuleUpdate DegradeRule) :=
  if d.deleted then d.target.deletion d.id
  else do
    let resource ← d.target.resolve
    if resource.scope = .global then throw .targetsGlobal
    let strategy ← d.breakStrategy
    let resume ← d.resumeStrategy
    let monitorMs ← positiveMillis d.statInterval .missingStatInterval
    let breakMs ← positiveMillis d.timeWindow .missingTimeWindow
    return .upsert {
      id := d.id
      resource := resource
      strategy := strategy
      minRequests := d.minRequestCount.getD 0
      monitorMs := monitorMs
      breakMs := breakMs
      resume := resume
      enabled := d.enabled
      response := .ofGiven d.responseStatus d.responseContentType d.responseContent }

end DegradeDocument

end Floodgate
