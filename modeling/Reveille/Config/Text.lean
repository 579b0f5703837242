import Reveille.Config
import Reveille.Json.Record
import Reveille.Json.Write

/-!
# Configuration files

A configuration file is a JSON record of the version, the settings and the alarms. Settings
and their members may be missing, and so may the alarms. Files are written with the
members of each object in alphabetical order, the volume widened to double precision, and a
line feed at the end.
-/

namespace Reveille

open Json

/-! ## Settings -/

namespace Settings

/-- The settings that have been read. -/
structure Given where
  pollMs : Option UInt64
  toleranceMs : Option UInt64
  lookbackMs : Option UInt64
  ackWindowMs : Option UInt64
  writeTimeoutMs : Option UInt64
  volume : Option (Binary Format.binary32)

namespace Given

def none : Given := ⟨.none, .none, .none, .none, .none, .none⟩

/-- The settings given, and defaults for the others. -/
def settings (g : Given) : Settings where
  pollMs := g.pollMs.getD defaults.pollMs
  toleranceMs := g.toleranceMs.getD defaults.toleranceMs
  lookbackMs := g.lookbackMs.getD defaults.lookbackMs
  ackWindowMs := g.ackWindowMs.getD defaults.ackWindowMs
  writeTimeoutMs := g.writeTimeoutMs.getD defaults.writeTimeoutMs
  volume := g.volume.getD defaults.volume

end Given

def shape : Shape Given Settings where
  label := "struct SettingsFile"
  members := [
    .of "poll_interval_ms" Given.pollMs (fun g n => { g with pollMs := some n }) .word64,
    .of "tolerance_ms" Given.toleranceMs (fun g n => { g with toleranceMs := some n }) .word64,
    .of "lookback_ms" Given.lookbackMs (fun g n => { g with lookbackMs := some n }) .word64,
    .of "ack_window_ms" Given.ackWindowMs (fun g n => { g with ackWindowMs := some n }) .word64,
    .of "write_timeout_ms" Given.writeTimeoutMs (fun g n => { g with writeTimeoutMs := some n })
      .word64,
    .of "forced_volume" Given.volume (fun g x => { g with volume := some x }) .single]
  draft := .none
  finish g := .ok g.settings

/-- A word as a JSON number. -/
def wordJson (n : UInt64) : Value := .integer n.toNat

def json (s : Settings) : Value := .object [
  ("ack_window_ms", wordJson s.ackWindowMs),
  ("forced_volume", .real (s.volume.convert Format.binary64)),
  ("lookback_ms", wordJson s.lookbackMs),
  ("poll_interval_ms", wordJson s.pollMs),
  ("tolerance_ms", wordJson s.toleranceMs),
  ("write_timeout_ms", wordJson s.writeTimeoutMs)]

end Settings

namespace Config

/-! ## Entries -/

/-- The members of an entry that have been read. -/
structure Entry.Given where
  user : Option String
  hour : Option Nat
  minute : Option Nat

def Entry.Given.finish (g : Entry.Given) : Except String Entry := do
  let user ← required "user_id" g.user
  let hour ← required "hour" g.hour
  let minute ← required "minute" g.minute
  .ok ⟨user, hour, minute⟩

def Entry.shape : Shape Entry.Given Entry where
  label := "struct AlarmFile"
  members := [
    .of "user_id" Entry.Given.user (fun g s => { g with user := some s }) .text,
    .of "hour" Entry.Given.hour (fun g n => { g with hour := some n }) .word32,
    .of "minute" Entry.Given.minute (fun g n => { g with minute := some n }) .word32]
  draft := ⟨none, none, none⟩
  finish := Entry.Given.finish

end Config

def UserAlarm.json (e : UserAlarm) : Value := .object [
  ("hour", .integer (e.alarm.hour : Nat)),
  ("minute", .integer (e.alarm.minute : Nat)),
  ("user_id", .string e.user)]

namespace Config

/-! ## Files -/

/-- The members of a file that have been read. -/
structure Given where
  version : Option Nat
  settings : Option Settings
  entries : Option (List Entry)

def Given.finish (g : Given) : Except String Draft := do
  let version ← required "version" g.version
  .ok ⟨version, g.settings.getD .defaults, g.entries.getD []⟩

def shape : Shape Given Draft where
  label := "struct ConfigFile"
  members := [
    .of "version" Given.version (fun g n => { g with version := some n }) .word32,
    .of "settings" Given.settings (fun g s => { g with settings := some s })
      Settings.shape.decoder,
    .of "alarms" Given.entries (fun g es => { g with entries := some es })
      (.list Entry.shape.decoder)]
  draft := ⟨none, none, none⟩
  finish := Given.finish

/-- The configuration that a file's text denotes. -/
def parse (text : String) : Except Fault Config := do
  let draft ← (shape.decoder.reader.parse text).mapError .notJson
  draft.check

def json (config : Config) : Value := .object [
  ("alarms", .array (config.alarms.map UserAlarm.json)),
  ("settings", config.settings.json),
  ("version", .integer Config.version)]

/-- The text of the configuration's file. -/
def fileText (config : Config) : String := config.json.pretty ++ "\n"

end Config

end Reveille
