import Floodgate.Admission.Gate
import Floodgate.Json.Printer
import Floodgate.Json.Reader
import Floodgate.Resource.Request
import Floodgate.Settings.Loading
import Floodgate.Source.File
import Floodgate.Stats.Report

/-!
# Dry runs

A dry run reads requests, one line of JSON each, and says of each what the gate decides. A request
that is let through is completed at once, with the outcome that its line gives. Blank lines and
lines that are no request are skipped.
-/

set_option autoImplicit false

namespace Floodgate

/-- A request of a dry run, and what will have become of it. -/
structure DryRequest where
  identity : Identity
  success : Bool
  deriving DecidableEq, Repr

namespace DryRequest

/-- The outcome, beside the fields of the identity. -/
def outcomeField : Json.Field := { name := "success" }

/-- The request that a line spells out. It must be an object, and also what is skipped in it must be
readable. -/
def ofLine? (line : String) : Option DryRequest := do
  match ← Json.read? line with
  | .obj members =>
    let others := members.filter fun m => m.1 ≠ outcomeField.name
    if !(Json.obj others).isUsable Json.depthLimit then none
    let outcome ← Json.Record.ofObject? [outcomeField] (.obj members)
    let identity ← Json.Record.ofObject? Identity.fields (.obj others)
    return {
      identity := ← Identity.ofRecord? identity
      success := ← outcome.defaulted "success" true Json.bool? }
  | _ => none

end DryRequest

/-- What a dry run says of a request. -/
structure DryDecision where
  service : String
  admitted : Bool
  resource : Option Resource := none
  probe : Bool := false
  reason : Option String := none
  response : Option DenyResponse := none
  deriving DecidableEq, Repr

def DenyResponse.toJson (r : DenyResponse) : Json :=
  .obj [("status", .int r.status), ("contentType", .str r.contentType), ("body", .str r.body)]

namespace DryDecision

/-- A decision as a JSON value. What does not apply is left out. -/
def toJson (d : DryDecision) : Json :=
  .obj ([("service", .str d.service), ("admitted", .bool d.admitted)] ++
    (d.resource.map fun r => ("resource", .str r.key)).toList ++
    (if d.probe then [("probe", .bool true)] else []) ++
    (d.reason.map fun s => ("reason", .str s)).toList ++
    (d.response.map fun r => ("response", r.toJson)).toList)

end DryDecision

namespace Gate

/-- Decides a request of a dry run, and completes it if it is let through. -/
def decide (g : Gate) (request : DryRequest) (draw : Float) : DryDecision × Gate :=
  let service := request.identity.service
  match g.enter request.identity draw with
  | (.permit p, g) =>
    ({ service, admitted := true, resource := p.resource?, probe := p.isProbe },
      g.complete p request.success)
  | (.deny d, g) =>
    ({ service, admitted := false, resource := some d.reason.resource
       reason := some d.reason.message, response := some d.response }, g)

/-- Decides the request of a line, if it holds one. -/
def serveLine (g : Gate) (line : String) (draw : Float) : Option DryDecision × Gate :=
  if Text.isAllBlank line then (none, g)
  else
    match DryRequest.ofLine? line with
    | none => (none, g)
    | some request =>
      let (d, g) := g.decide request draw
      (some d, g)

end Gate

/-! ## Runs -/

inductive StartError where
  | settings (e : SettingsError)
  | rules (e : SourceError)
  deriving DecidableEq, Repr

/-- A dry run in progress. Between two lines the rule file may be due for another reading, and idle
resources for eviction. -/
structure DryRun where
  gate : Gate
  source : FileSource
  housekeeper : Housekeeper
  /-- Milliseconds between readings of the rule file, if there is one. -/
  reloadMs : Option Nat
  nextReload : Nat
  nextPass : Nat

namespace DryRun

/-- A run that begins now. `rules` is the text of the rule file, if one is named; the text is
`none` if it cannot be read. -/
def start (settings : Settings) (rules : Option (Option String)) (now : Nat) :
    Except StartError DryRun :=
  let gate := Gate.new .empty settings.stats.store { now }
  let housekeeper := Housekeeper.ofGiven settings.stats.publishIntervalSecs
    settings.stats.idleEvictSecs (settings.stats.publishIntervalSecs != 0)
  let started (gate : Gate) (source : FileSource) (reloadMs : Option Nat) : DryRun :=
    { gate, source, housekeeper, reloadMs, nextReload := now, nextPass := now }
  match rules with
  | none => .ok (started gate {} none)
  | some text =>
    match ({} : FileSource).load text with
    | (.ok raws, source) =>
      let reloadMs := settings.rules.reloadIntervalSecs * 1000
      .ok (started (gate.applyRules raws).2 source (some reloadMs))
    | (.error e, _) => .error (.rules e)

/-- Sets the clock of the gate. Without a time the next reading fails. -/
def setClock (d : DryRun) (now : Option Nat) : DryRun :=
  { d with gate := { d.gate with clock :=
      match now with
      | some now => d.gate.clock.set now
      | none => d.gate.clock.failNext } }

def reloadDue (d : DryRun) (now : Nat) : Bool := d.reloadMs.isSome && d.nextReload ≤ now

/-- Takes another reading of the rule file, and applies what has changed. -/
def reload (d : DryRun) (text : Option String) (now : Nat) : DryRun :=
  let ((changed, removed), source) := d.source.poll text
  { d with
    gate := (d.gate.applyRules (changed ++ removed)).2
    source := source
    nextReload := now + d.reloadMs.getD 0 }

/-- Evicts idle resources if that is due. Gives a report, if reports are made. -/
def housekeep (d : DryRun) (now : Nat) : Option Report × DryRun :=
  if d.nextPass ≤ now then
    let (report, stats, clock) := d.housekeeper.tick d.gate.stats d.gate.clock
    (report, { d with
      gate := { d.gate with stats, clock }
      nextPass := now + d.housekeeper.intervalSecs * 1000 })
  else (none, d)

/-- Decides the request of a line, if it holds one. -/
def serve (d : DryRun) (line : String) (draw : Float) : Option DryDecision × DryRun :=
  let (decision, gate) := d.gate.serveLine line draw
  (decision, { d with gate })

end DryRun
end Floodgate
