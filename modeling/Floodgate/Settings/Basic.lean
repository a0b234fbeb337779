import Floodgate.Json.Basic
import Floodgate.Stats.Store

/-!
# Settings

What can be set about the statistics, the rule source and the log, with the value each setting has
when nothing sets it, and the numbers that must not be zero.
-/

set_option autoImplicit false

namespace Floodgate

structure StatSettings where
  slotDurationMs : Nat := 1000
  retentionSlots : Nat := 600
  /-- After so many seconds without traffic a resource is dropped. -/
  idleEvictSecs : Nat := 3600
  /-- Seconds between reports; without reports if zero. -/
  publishIntervalSecs : Nat := 10
  deriving DecidableEq, Repr

structure RuleSettings where
  path : Option String := none
  /-- Seconds between readings of the rule file. -/
  reloadIntervalSecs : Nat := 60
  deriving DecidableEq, Repr

structure LogSettings where
  level : String := "info"
  json : Bool := false
  deriving DecidableEq, Repr

structure Settings where
  stats : StatSettings := {}
  rules : RuleSettings := {}
  logging : LogSettings := {}
  deriving DecidableEq, Repr

def Settings.toJson (s : Settings) : Json :=
  .obj [("stats", .obj [("slot_duration_ms", .int s.stats.slotDurationMs),
      ("retention_slots", .int s.stats.retentionSlots),
      ("idle_evict_secs", .int s.stats.idleEvictSecs),
      ("publish_interval_secs", .int s.stats.publishIntervalSecs)]),
    ("rules", .obj [("path", (s.rules.path.map Json.str).getD .null),
      ("reload_interval_secs", .int s.rules.reloadIntervalSecs)]),
    ("logging", .obj [("level", .str s.logging.level), ("json", .bool s.logging.json)])]

/-- A store with the measures that are set. -/
def StatSettings.store (s : StatSettings) : StatStore :=
  StatStore.new s.slotDurationMs s.retentionSlots

/-! ## Errors -/

/-- Which setting must not be zero. -/
inductive SettingsFault where
  | slotDuration
  | retention
  | reloadInterval
  deriving DecidableEq, Repr

inductive SettingsError where
  /-- A source could not be read, or a value does not fit its field. -/
  | unreadable
  /-- A number is zero that must not be. -/
  | invalid (fault : SettingsFault)
  deriving DecidableEq, Repr

/-- The wording of a refusal, where it is the library's own. -/
def SettingsError.message? : SettingsError → Option String
  | unreadable => none
  | invalid fault =>
    let name :=
      match fault with
      | .slotDuration => "stats.slot_duration_ms"
      | .retention => "stats.retention_slots"
      | .reloadInterval => "rules.reload_interval_secs"
    some ("Configuration error: " ++ name ++ " must be positive")

/-- Checks the numbers that nothing works without. -/
def Settings.validate (s : Settings) : Except SettingsError Settings :=
  if s.stats.slotDurationMs = 0 then .error (.invalid .slotDuration)
  else if s.stats.retentionSlots = 0 then .error (.invalid .retention)
  else if s.rules.reloadIntervalSecs = 0 then .error (.invalid .reloadInterval)
  else .ok s

end Floodgate
