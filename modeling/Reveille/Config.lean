import Reveille.Alarm
import Reveille.File
import Reveille.Json.Cursor
import Reveille.Settings

/-!
# Configurations

A `Config` holds the settings and the alarm of each user, in the order in which users came.
A `Draft` is what a configuration file says, and `Draft.check` accepts it as a
configuration or names the first rule that it breaks : the version, the poll interval, the
volume, then entry by entry a user who was there before and a time that no clock shows, and
last the tolerance.
-/

namespace Reveille

open Text

/-- The alarm of a user. -/
structure UserAlarm where
  user : String
  alarm : Alarm
  deriving DecidableEq

structure Config where
  settings : Settings
  alarms : List UserAlarm
  deriving DecidableEq

namespace Config

/-- The version of the file format. -/
def version : Nat := 1

/-- The alarm that a user has set. -/
def alarmOf? (config : Config) (user : String) : Option Alarm :=
  (config.alarms.find? (·.user = user)).map UserAlarm.alarm

/-- The entries with the alarm of one user replaced, or added at the end. -/
def putAlarm (user : String) (alarm : Alarm) : List UserAlarm → List UserAlarm
  | [] => [⟨user, alarm⟩]
  | e :: rest =>
    if e.user = user then { e with alarm } :: rest else e :: putAlarm user alarm rest

def setAlarm (config : Config) (user : String) (alarm : Alarm) : Config :=
  { config with alarms := putAlarm user alarm config.alarms }

/-- Two configurations agree, a zero volume of either sign counting as the same. -/
def SameAs (a b : Config) : Prop :=
  a.alarms = b.alarms ∧ a.settings = { b.settings with volume := a.settings.volume }
    ∧ a.settings.volume.SameValue b.settings.volume

instance (a b : Config) : Decidable (a.SameAs b) :=
  inferInstanceAs (Decidable (a.alarms = b.alarms
    ∧ a.settings = { b.settings with volume := a.settings.volume }
    ∧ a.settings.volume.SameValue b.settings.volume))

/-! ## Faults -/

/-- Why there is no configuration. -/
inductive Fault where
  | unreadable (path : String) (fault : FileFault)
  | notJson (fault : Json.Fault)
  | unsupportedVersion (version : Nat)
  | noPollInterval
  | badVolume (volume : Binary Format.binary32)
  | duplicateUser (user : String)
  | badAlarm (user : String) (refusal : Refusal)
  /-- The tolerance is wider than the lookback. -/
  | wideTolerance (tolerance lookback : UInt64)
  | unwritable (path : String) (fault : FileFault)
  deriving DecidableEq

/-- The parts of a message, each saying why the one before it came about. -/
def Fault.causes : Fault → List String
  | .unreadable path fault => ["unable to read config file " ++ path, fault.message]
  | .notJson fault =>
    ["invalid JSON at line " ++ String.ofList (digits fault.position.line) ++ ", column "
      ++ String.ofList (digits fault.position.column) ++ ": " ++ fault.message]
  | .unsupportedVersion version =>
    ["unsupported config version " ++ String.ofList (digits version) ++ "; expected version 1"]
  | .noPollInterval => ["settings.poll_interval_ms must be > 0"]
  | .badVolume volume =>
    ["settings.forced_volume must be within 0.0..=1.0, got "
      ++ String.ofList (volume.text .plain)]
  | .duplicateUser user => ["duplicate alarm entry for user: " ++ user]
  | .badAlarm user refusal => ["alarm for user '" ++ user ++ "' rejected", refusal.message]
  | .wideTolerance tolerance lookback =>
    ["invalid settings", Settings.windowMessage tolerance lookback]
  | .unwritable path fault => ["unable to write config file " ++ path, fault.message]

def Fault.message (fault : Fault) : String := ": ".intercalate fault.causes

/-! ## Drafts -/

/-- What a configuration file says of a user's alarm. -/
structure Entry where
  user : String
  hour : Nat
  minute : Nat
  deriving DecidableEq, Repr

/-- What a configuration file says. -/
structure Draft where
  version : Nat
  settings : Settings
  entries : List Entry
  deriving DecidableEq

/-- The alarms of entries whose users are not among those `seen`. -/
def checkEntries (seen : List String) : List Entry → Except Fault (List UserAlarm)
  | [] => .ok []
  | e :: rest =>
    if e.user ∈ seen then .error (.duplicateUser e.user)
    else
      match Alarm.make e.hour e.minute with
      | .error refusal => .error (.badAlarm e.user refusal)
      | .ok alarm => do
        let alarms ← checkEntries (e.user :: seen) rest
        .ok (⟨e.user, alarm⟩ :: alarms)

/-- The configuration of a draft that keeps every rule. -/
def Draft.check (draft : Draft) : Except Fault Config :=
  let s := draft.settings
  if draft.version ≠ Config.version then .error (.unsupportedVersion draft.version)
  else if s.pollMs = 0 then .error .noPollInterval
  else if ¬ s.volume.InUnitInterval then .error (.badVolume s.volume)
  else do
    let alarms ← checkEntries [] draft.entries
    if s.WindowFits then .ok ⟨s, alarms⟩
    else .error (.wideTolerance s.toleranceMs s.lookbackMs)

end Config

end Reveille
