import Reveille.CommandLine.Arguments
import Reveille.CommandLine.Dialogue

/-!
# The program

What the program does with its arguments : it loads the configuration and overrides its
settings; then it sets an alarm, reports the next trigger, or runs a session. It acts
through a `Host`, which reads and writes files, knows the time, and holds the dialogue with
the user, so that it can be run on a machine as well as rehearsed.

A failure is reported on one line, from the step that failed down to its causes.
-/

namespace Reveille

open Text

/-- What the program needs of the machine that it runs on. -/
structure Host (m : Type → Type) where
  read : String → m (Except FileFault String)
  write : String → String → m Write
  say : String → m Unit
  now : m Instant
  zone : m Zone
  /-- Runs a session to its end. -/
  converse : Session → Dial → World → m Dialogue.Ending

/-! ## Failures -/

/-- Why the program fails. -/
inductive ProgramFault where
  | emptyUser
  | config (path : String) (fault : Config.Fault)
  | override (fault : OverrideFault)
  | saving (path : String) (fault : StoreFault)
  | opening (path : String) (fault : StoreFault)
  | session (fault : SessionFault)
  | input (fault : Utf8.Fault)
  deriving DecidableEq

/-- The parts of a message, each saying why the one before it came about. -/
def ProgramFault.causes : ProgramFault → List String
  | .emptyUser => ["--user must not be empty"]
  | .config path fault => ("failed to load " ++ path) :: fault.causes
  | .override fault => fault.causes
  | .saving path fault => ("failed to save alarm to " ++ path) :: fault.causes
  | .opening path fault => ("failed to open " ++ path) :: fault.causes
  | .session fault => fault.causes
  | .input fault => ["failed to read stdin", fault.message]

def ProgramFault.message (fault : ProgramFault) : String :=
  "error: " ++ ": ".intercalate fault.causes

/-! ## Steps -/

namespace Arguments

/-- The user's name, without the blanks around it. -/
def userName (a : Arguments) : Except ProgramFault String :=
  let name := trim a.user.toList
  if name.isEmpty then .error .emptyUser else .ok (String.ofList name)

def dial (a : Arguments) : Dial := if a.hour12 then .hours12 else .hours24

/-- The alarm to be set. -/
def picked (a : Arguments) (zone : Zone) (now : Instant) : Except Refusal (Option Alarm) :=
  match a.setAlarm, a.setAlarmIn with
  | some alarm, _ => .ok (some alarm)
  | none, some minutes =>
    match now.shift? (.ofMinutes minutes) with
    | some i => .ok (some (.ofLocalTime (zone.localTime i)))
    | none => .error .outOfRange
  | none, none => .ok none

end Arguments

namespace Program

variable {m : Type → Type} [Monad m]

/-- A step that may fail. -/
abbrev Step (m : Type → Type) (α : Type) := ExceptT ProgramFault m α

/-- A step that does not fail. -/
def plain {α : Type} (x : m α) : Step m α := ExceptT.lift x

/-- A result that may be a failure. -/
def orFail {α ε : Type} (f : ε → ProgramFault) (x : Except ε α) : Step m α :=
  ExceptT.mk (pure (x.mapError f))

/-- Sets the user's alarm. -/
def saveAlarm (host : Host m) (a : Arguments) (alarms : AlarmStore) (user : String)
    (alarm : Alarm) : Step m Unit := do
  let text := (alarms.config.setAlarm user alarm).fileText
  let write ← plain (host.write a.config text)
  let _ ← orFail (.saving a.config) (alarms.save user alarm write)
  plain (host.say ("Alarm for " ++ user ++ " set to " ++ alarm.text))

/-- Reports the next trigger. -/
def report (host : Host m) (a : Arguments) (settings : Settings) (alarms : AlarmStore)
    (wakeups : WakeupStore) (user : String) (zone : Zone) : Step m Unit := do
  let now ← plain host.now
  let lines ← orFail .session (Report.lines user settings zone a.dial now
    (.ok (alarms.alarmOf? user)) (.ok (wakeups.latest? user)))
  lines.forM fun line => plain (host.say line)

/-- Runs a session. -/
def attend (host : Host m) (a : Arguments) (settings : Settings) (alarms : AlarmStore)
    (wakeups : WakeupStore) (user : String) (zone : Zone) : Step m Unit := do
  match ← plain (host.converse (.new user zone settings) a.dial (.new alarms wakeups)) with
  | .badInput fault => orFail .input (.error fault)
  | _ => pure ()

/-- The program, once its arguments have been read. -/
def runWith (host : Host m) (a : Arguments) : Step m Unit := do
  let user ← orFail id a.userName
  let content ← plain (host.read a.config)
  let alarms ← orFail (.config a.config) (AlarmStore.load a.config content)
  let settings ← orFail .override (a.override alarms.config.settings)
  let zone ← plain host.zone
  match ← orFail (.session ∘ .refused) (a.picked zone (← plain host.now)) with
  | some alarm => saveAlarm host a alarms user alarm
  | none =>
    let content ← plain (host.read a.wakeups)
    let wakeups ← orFail (.opening a.wakeups) (WakeupStore.load a.wakeups content)
    if a.next then report host a settings alarms wakeups user zone
    else attend host a settings alarms wakeups user zone

/-! ## The whole program -/

/-- How the program ends. -/
inductive Exit where
  | success
  | failure (fault : ProgramFault)
  | usage (fault : ArgumentFault)
  deriving DecidableEq

/-- The exit code. -/
def Exit.code : Exit → Nat
  | .success => 0
  | .failure _ => 1
  | .usage _ => 2

/-- Name and version. -/
def versionLine : String := "wakey 0.1.0"

/-- What the arguments are for. -/
def helpLines : List String := [
  "Daily wake-up alarm with once-per-occurrence triggering and acknowledgment",
  "",
  "Usage: wakey [OPTIONS] --user <USER>",
  "",
  "Options:",
  "      --config <CONFIG>                      [default: wakey.json]",
  "      --user <USER>",
  "      --wakeups <WAKEUPS>                    [default: wakeups.json]",
  "      --poll-interval-ms <POLL_INTERVAL_MS>",
  "      --tolerance-secs <TOLERANCE_SECS>",
  "      --ack-window-mins <ACK_WINDOW_MINS>",
  "      --set-alarm <HH:MM>                    Replace the user's alarm and exit",
  "      --set-alarm-in <MINUTES>               " ++
    "Set the alarm to ring this many minutes from now and exit",
  "      --next                                 " ++
    "Print the next trigger and the current phase, then exit",
  "      --hour12",
  "  -v, --verbose",
  "  -h, --help                                 Print help",
  "  -V, --version                              Print version"]

/-- The program on the words of its command line. -/
def run (host : Host m) (words : List String) : m Exit := do
  match Arguments.parse words with
  | .ok a =>
    match ← (runWith host a).run with
    | .ok () => pure .success
    | .error fault => pure (.failure fault)
  | .error .helpWanted =>
    helpLines.forM host.say
    pure .success
  | .error .versionWanted =>
    host.say versionLine
    pure .success
  | .error fault => pure (.usage fault)

end Program

end Reveille
