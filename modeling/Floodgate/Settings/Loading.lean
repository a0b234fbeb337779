import Floodgate.Decimal.Layout
import Floodgate.Settings.Basic
import Floodgate.Settings.Source

/-!
# Loading settings

The tree of what is set is read into the fields of `Settings`. Each field takes what comes close
enough: a text that spells a number for a number, a number for a truth value, and so on. What no
source sets has a default; what is set and cannot be read is an error. At last the numbers are
checked that nothing works without.
-/

set_option autoImplicit false

namespace Floodgate
namespace Setting

/-- A number that is not negative. -/
def unsignedValue? : Setting → Option Nat
  | bool b => some b.toNat
  | int i => if 0 ≤ i then some i.toNat else none
  | real x => some x.round.toUInt64.toNat
  | text s =>
    let lower := s.toLower
    if lower = "true" || lower = "on" || lower = "yes" then some 1
    else if lower = "false" || lower = "off" || lower = "no" then some 0
    else Spelling.unsigned? s
  | _ => none

def boolValue? : Setting → Option Bool
  | bool b => some b
  | int i => some (i != 0)
  | real x => some (x != 0.0)
  | text s =>
    let lower := s.toLower
    if lower = "1" || lower = "true" || lower = "on" || lower = "yes" then some true
    else if lower = "0" || lower = "false" || lower = "off" || lower = "no" then some false
    else none
  | _ => none

def realText (x : Float) : String :=
  if x.isFinite then Decimal.plain.render x
  else if x.isNaN then "NaN"
  else if x < 0.0 then "-inf"
  else "inf"

def textValue? : Setting → Option String
  | bool b => some (if b then "true" else "false")
  | int i => some (toString i)
  | real x => some (realText x)
  | text s => some s
  | _ => none

/-- A text that may be `null`. -/
def optionalText? : Setting → Option (Option String)
  | null => some none
  | s => (textValue? s).map some

/-- A section. It is a table, or a list that gives values to the fields in their order. A list may
stop before its end but not before its `least`-th item. -/
def section? (s : Setting) (name : String) (fields : List String) (least : Nat) : Option Setting :=
  match s.get? name with
  | none => some empty
  | some (table ms) => some (table ms)
  | some (list items) => if items.length < least then none else some (table (fields.zip items))
  | some _ => none

/-- A field of a section, or its default. -/
def field {α : Type} (s : Setting) (name : String) (default : α) (read : Setting → Option α) :
    Option α :=
  match s.get? name with
  | none => some default
  | some value => read value

/-- The settings that a tree sets. -/
def toSettings? (s : Setting) : Option Settings := do
  let stats ← s.section? "stats"
    ["slot_duration_ms", "retention_slots", "idle_evict_secs", "publish_interval_secs"] 0
  -- a list of rule settings has to begin with a path, if only `null`
  let rules ← s.section? "rules" ["path", "reload_interval_secs"] 1
  let logging ← s.section? "logging" ["level", "json"] 0
  let plain : Settings := {}
  return {
    stats := {
      slotDurationMs := ← stats.field "slot_duration_ms" plain.stats.slotDurationMs unsignedValue?
      retentionSlots := ← stats.field "retention_slots" plain.stats.retentionSlots unsignedValue?
      idleEvictSecs := ← stats.field "idle_evict_secs" plain.stats.idleEvictSecs unsignedValue?
      publishIntervalSecs :=
        ← stats.field "publish_interval_secs" plain.stats.publishIntervalSecs unsignedValue? }
    rules := {
      path := ← rules.field "path" none optionalText?
      reloadIntervalSecs :=
        ← rules.field "reload_interval_secs" plain.rules.reloadIntervalSecs unsignedValue? }
    logging := {
      level := ← logging.field "level" plain.logging.level textValue?
      json := ← logging.field "json" plain.logging.json boolValue? } }

end Setting

namespace Settings

/-- The settings of a file, if one is named, and of the environment. The text of a named file is
`none` if it cannot be read. -/
def load (file : Option (Option String)) (environment : List (String × String)) :
    Except SettingsError Settings :=
  let content :=
    match file with
    | none => some []
    | some content => content.bind Setting.ofFile?
  match content.bind fun members => (Setting.ofSources members environment).toSettings? with
  | some settings => settings.validate
  | none => .error .unreadable

end Settings
end Floodgate
