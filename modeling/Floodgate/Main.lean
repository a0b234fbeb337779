import Floodgate.DryRun
import Std.Time.DateTime.Timestamp

/-!
# The command line

`floodgate [--config FILE] [--rules FILE]` makes a dry run of the requests on standard input.
Decisions go to standard output, reports to standard error. The rule file on the command line
takes precedence over the one in the settings.
-/

set_option autoImplicit false

namespace Floodgate
namespace CommandLine

/-- What the command line names. -/
structure Options where
  settings : Option String := none
  rules : Option String := none

/-- The text after a beginning, if it has that beginning. -/
def valueAfter? (start argument : String) : Option String :=
  (Setting.afterStart? start.toList argument.toList).map String.ofList

/-- Reads the arguments; `none` if there is one that has no meaning. -/
def options? : List String → Options → Option Options
  | [], o => some o
  | "-c" :: file :: rest, o | "--config" :: file :: rest, o =>
    options? rest { o with settings := some file }
  | "-r" :: file :: rest, o | "--rules" :: file :: rest, o =>
    options? rest { o with rules := some file }
  | argument :: rest, o =>
    match valueAfter? "--config=" argument, valueAfter? "--rules=" argument with
    | some file, _ => options? rest { o with settings := some file }
    | _, some file => options? rest { o with rules := some file }
    | none, none => none

/-- The variables of the environment that settings may come from. -/
def variableNames : List String :=
  ["STATS__SLOT_DURATION_MS", "STATS__RETENTION_SLOTS", "STATS__IDLE_EVICT_SECS",
    "STATS__PUBLISH_INTERVAL_SECS", "RULES__PATH", "RULES__RELOAD_INTERVAL_SECS", "LOGGING__LEVEL",
    "LOGGING__JSON"].map (Setting.environmentStart.toUpper ++ ·)

def environment : IO (List (String × String)) :=
  variableNames.filterMapM fun name => do return (← IO.getEnv name).map fun value => (name, value)

/-- The text of a file, if it can be read. -/
def readText (path : String) : IO (Option String) := do
  try
    return some (← IO.FS.readFile path)
  catch _ => return none

/-- The time in milliseconds, if it is not before the epoch. -/
def currentTime : IO (Option Nat) := do
  match (← Std.Time.Timestamp.now).toMillisecondsSinceUnixEpoch.toInt with
  | .ofNat ms => return some ms
  | .negSucc _ => return none

/-- A number from `[0, 1)`. -/
def draw : IO Float := do
  let n ← IO.rand 0 0x1fffffffffffff
  return n.toFloat / (0x20000000000000 : Nat).toFloat

/-- Reads the rule file if it is due. -/
def reload (d : DryRun) (path : Option String) (now : Nat) : IO DryRun := do
  match path with
  | some path => if d.reloadDue now then return d.reload (← readText path) now else return d
  | none => return d

/-- Serves lines until the input ends. -/
partial def serve (d : DryRun) (path : Option String) (input output : IO.FS.Stream) : IO Unit := do
  let line ← input.getLine
  if line.isEmpty then return
  let now ← currentTime
  let mut run := d
  if let some now := now then
    run ← reload (run.setClock now) path now
    let (report, next) := run.housekeep now
    run := next
    if let some report := report then
      IO.eprintln report.toJson.render
  let (decision, next) := (run.setClock now).serve line (← draw)
  if let some decision := decision then
    output.putStrLn decision.toJson.render
    output.flush
  serve next path input output

def run (arguments : List String) : IO UInt32 := do
  let some options := options? arguments {}
    | IO.eprintln "usage: floodgate [--config FILE] [--rules FILE]"
      return 2
  let file ← options.settings.mapM readText
  match Settings.load file (← environment) with
  | .error e =>
    IO.eprintln (e.message?.getD "Settings error")
    return 1
  | .ok settings =>
    let path := options.rules.orElse fun _ => settings.rules.path
    let text ← path.mapM readText
    match DryRun.start settings text ((← currentTime).getD 0) with
    | .error _ =>
      IO.eprintln "Rule source error"
      return 1
    | .ok d =>
      serve d path (← IO.getStdin) (← IO.getStdout)
      return 0

end CommandLine
end Floodgate

def main (arguments : List String) : IO UInt32 := Floodgate.CommandLine.run arguments
