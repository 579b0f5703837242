import Reveille.Alarm
import Reveille.Settings

/-!
# Arguments

The arguments of the program. A parameter takes a value, either behind an equals sign or as
the argument after it; a switch takes none. Every one of them may be given once. A value
that is an argument of its own must not begin with a hyphen, unless it is just a hyphen, and
it is looked at only when the next known argument has been read or all have : an unknown
argument is reported before the faults of the value that precedes it.

Of two ways to set an alarm only one may be chosen, and a user has to be named. The settings
that a configuration file gives can be overridden (`Arguments.override`); large values stop
at the greatest that a setting can have.
-/

namespace Reveille

open Text

/-! ## Parameters and switches -/

/-- An argument with a value. -/
inductive Parameter where
  | config
  | user
  | wakeups
  | pollInterval
  | tolerance
  | ackWindow
  | setAlarm
  | setAlarmIn
  deriving DecidableEq, Repr

namespace Parameter

def all : List Parameter :=
  [config, user, wakeups, pollInterval, tolerance, ackWindow, setAlarm, setAlarmIn]

/-- What stands behind the two hyphens. -/
def name : Parameter → String
  | config => "config"
  | user => "user"
  | wakeups => "wakeups"
  | pollInterval => "poll-interval-ms"
  | tolerance => "tolerance-secs"
  | ackWindow => "ack-window-mins"
  | setAlarm => "set-alarm"
  | setAlarmIn => "set-alarm-in"

/-- What stands for the value in messages. -/
def placeholder : Parameter → String
  | config => "CONFIG"
  | user => "USER"
  | wakeups => "WAKEUPS"
  | pollInterval => "POLL_INTERVAL_MS"
  | tolerance => "TOLERANCE_SECS"
  | ackWindow => "ACK_WINDOW_MINS"
  | setAlarm => "HH:MM"
  | setAlarmIn => "MINUTES"

def named? (s : String) : Option Parameter := all.find? (·.name = s)

/-- The parameter and its value as they are written. -/
def usage (p : Parameter) : String := "--" ++ p.name ++ " <" ++ p.placeholder ++ ">"

end Parameter

/-- An argument without a value. -/
inductive Switch where
  | next
  | hour12
  | verbose
  | help
  | version
  deriving DecidableEq, Repr

namespace Switch

def all : List Switch := [next, hour12, verbose, help, version]

def name : Switch → String
  | next => "next"
  | hour12 => "hour12"
  | verbose => "verbose"
  | help => "help"
  | version => "version"

def named? (s : String) : Option Switch := all.find? (·.name = s)

/-- The switch that one letter stands for. -/
def lettered? (c : Char) : Option Switch :=
  if c = 'v' then some verbose
  else if c = 'h' then some help
  else if c = 'V' then some version
  else none

end Switch

/-! ## Faults -/

/-- Why arguments are not accepted, or what they call for instead. -/
inductive ArgumentFault where
  | unknown (argument : String)
  | missingValue (p : Parameter)
  | emptyPath (p : Parameter)
  | badValue (p : Parameter) (value reason : String)
  | unwantedValue (s : Switch)
  | repeatedParameter (p : Parameter)
  | repeatedSwitch (s : Switch)
  /-- Two ways to set an alarm. -/
  | conflict
  | noUser
  | helpWanted
  | versionWanted
  deriving DecidableEq, Repr

namespace ArgumentFault

/-- What is wrong with the arguments. -/
def problem : ArgumentFault → String
  | .unknown argument => "unexpected argument '" ++ argument ++ "' found"
  | .missingValue p | .emptyPath p =>
    "a value is required for '" ++ p.usage ++ "' but none was supplied"
  | .badValue p value reason =>
    "invalid value '" ++ value ++ "' for '" ++ p.usage ++ "': " ++ reason
  | .unwantedValue s => "the argument '--" ++ s.name ++ "' takes no value"
  | .repeatedParameter p => "the argument '" ++ p.usage ++ "' cannot be used multiple times"
  | .repeatedSwitch s => "the argument '--" ++ s.name ++ "' cannot be used multiple times"
  | .conflict =>
    "the argument '" ++ Parameter.setAlarm.usage ++ "' cannot be used with '"
      ++ Parameter.setAlarmIn.usage ++ "'"
  | .noUser =>
    "the following required arguments were not provided: " ++ Parameter.user.usage
  | .helpWanted => "help is wanted"
  | .versionWanted => "the version is wanted"

def message (fault : ArgumentFault) : String := "error: " ++ fault.problem

/-- The first line of the message. -/
def headline (fault : ArgumentFault) : String := String.ofList (firstLine fault.message.toList)

end ArgumentFault

/-! ## What is given -/

structure Arguments where
  config : String
  user : String
  wakeups : String
  pollMs : Option UInt64
  toleranceSecs : Option UInt64
  ackWindowMins : Option UInt64
  setAlarm : Option Alarm
  /-- Minutes from now. -/
  setAlarmIn : Option Nat
  next : Bool
  hour12 : Bool
  verbose : Bool
  deriving DecidableEq

namespace Arguments

/-- The arguments that have been read. -/
structure Given where
  config : Option String
  user : Option String
  wakeups : Option String
  pollMs : Option UInt64
  toleranceSecs : Option UInt64
  ackWindowMins : Option UInt64
  setAlarm : Option Alarm
  setAlarmIn : Option Nat
  next : Bool
  hour12 : Bool
  verbose : Bool
  deriving DecidableEq

namespace Given

def none : Given :=
  ⟨.none, .none, .none, .none, .none, .none, .none, .none, false, false, false⟩

/-- The parameter has been given before. -/
def has (g : Given) : Parameter → Bool
  | .config => g.config.isSome
  | .user => g.user.isSome
  | .wakeups => g.wakeups.isSome
  | .pollInterval => g.pollMs.isSome
  | .tolerance => g.toleranceSecs.isSome
  | .ackWindow => g.ackWindowMins.isSome
  | .setAlarm => g.setAlarm.isSome
  | .setAlarmIn => g.setAlarmIn.isSome

/-- A word of 64 bits. -/
def word (p : Parameter) (value : String) : Except ArgumentFault UInt64 :=
  match readNatural 18446744073709551615 value.toList with
  | .ok n => .ok (.ofNat n)
  | .error fault => .error (.badValue p value fault.message)

/-- A path, which is not empty. -/
def path (p : Parameter) (value : String) : Except ArgumentFault String :=
  if value.isEmpty then .error (.emptyPath p) else .ok value

/-- The greatest number of minutes. -/
def minutesLimit : Nat := 4294967295

/-- A number of minutes. -/
def minutes (p : Parameter) (value : String) : Except ArgumentFault Nat :=
  match readInteger 9223372036854775808 9223372036854775807 value.toList with
  | .ok n =>
    if 0 ≤ n ∧ n ≤ minutesLimit then .ok n.toNat
    else
      .error (.badValue p value
        (String.ofList (integer n) ++ " is not in 0..=" ++ String.ofList (digits minutesLimit)))
  | .error fault => .error (.badValue p value fault.message)

/-- The alarm of a text. -/
def alarm (p : Parameter) (value : String) : Except ArgumentFault Alarm :=
  (Alarm.parse value).mapError fun refusal => .badValue p value refusal.message

/-- One more value. -/
def set (g : Given) (p : Parameter) (value : String) : Except ArgumentFault Given :=
  if g.has p then .error (.repeatedParameter p)
  else
    match p with
    | .config => (path p value).map fun s => { g with config := some s }
    | .user => .ok { g with user := some value }
    | .wakeups => (path p value).map fun s => { g with wakeups := some s }
    | .pollInterval => (word p value).map fun n => { g with pollMs := some n }
    | .tolerance => (word p value).map fun n => { g with toleranceSecs := some n }
    | .ackWindow => (word p value).map fun n => { g with ackWindowMins := some n }
    | .setAlarm => (alarm p value).map fun a => { g with setAlarm := some a }
    | .setAlarmIn => (minutes p value).map fun n => { g with setAlarmIn := some n }

/-- One more switch. -/
def turnOn (g : Given) (s : Switch) : Except ArgumentFault Given :=
  match s with
  | .help => .error .helpWanted
  | .version => .error .versionWanted
  | .next => if g.next then .error (.repeatedSwitch s) else .ok { g with next := true }
  | .hour12 => if g.hour12 then .error (.repeatedSwitch s) else .ok { g with hour12 := true }
  | .verbose => if g.verbose then .error (.repeatedSwitch s) else .ok { g with verbose := true }

/-- The arguments, complete and without contradiction. -/
def check (g : Given) : Except ArgumentFault Arguments :=
  if g.setAlarm.isSome ∧ g.setAlarmIn.isSome then .error .conflict
  else
    match g.user with
    | .none => .error .noUser
    | some user => .ok {
      config := g.config.getD "wakey.json"
      user := user
      wakeups := g.wakeups.getD "wakeups.json"
      pollMs := g.pollMs
      toleranceSecs := g.toleranceSecs
      ackWindowMins := g.ackWindowMins
      setAlarm := g.setAlarm
      setAlarmIn := g.setAlarmIn
      next := g.next
      hour12 := g.hour12
      verbose := g.verbose }

end Given

/-! ## Reading -/

/-- The arguments that have been read, and the parameter read last if its value has not
been looked at, with that value once it has been found. -/
structure Reading where
  given : Given
  pending : Option (Parameter × Option String)

namespace Reading

def start : Reading := ⟨.none, none⟩

/-- Looks at the value of the parameter read last. -/
def settle (r : Reading) : Except ArgumentFault Given :=
  match r.pending with
  | none => .ok r.given
  | some (p, none) => .error (.missingValue p)
  | some (p, some value) => r.given.set p value

/-- A switch. -/
def turnOn (r : Reading) (s : Switch) : Except ArgumentFault Reading := do
  let given ← (← r.settle).turnOn s
  .ok ⟨given, none⟩

/-- An argument behind two hyphens, with the value behind its equals sign. -/
def long (r : Reading) (argument name : String) (value : Option String) :
    Except ArgumentFault Reading :=
  match Parameter.named? name, Switch.named? name, value with
  | some p, _, some value => do
    let given ← (← r.settle).set p value
    .ok ⟨given, none⟩
  | some p, _, none => do .ok ⟨← r.settle, some (p, none)⟩
  | none, some s, some _ => .error (.unwantedValue s)
  | none, some s, none => r.turnOn s
  | none, none, _ => .error (.unknown argument)

/-- The letters behind a single hyphen. -/
def short (r : Reading) : List Char → Except ArgumentFault Reading
  | [] => .ok r
  | c :: cs =>
    match Switch.lettered? c with
    | some s => do (← r.turnOn s).short cs
    | none => .error (.unknown (String.ofList ['-', c]))

/-- An argument that does not begin with a hyphen, or is one. -/
def plain (r : Reading) (argument : String) : Except ArgumentFault Reading :=
  match r.pending with
  | some (p, none) => .ok { r with pending := some (p, some argument) }
  | _ => .error (.unknown argument)

/-- One more argument. -/
def next (r : Reading) (argument : String) : Except ArgumentFault Reading :=
  match argument.toList with
  | '-' :: '-' :: cs =>
    let name := String.ofList (cs.takeWhile (· != '='))
    match cs.dropWhile (· != '=') with
    | [] => r.long argument name none
    | _ :: value => r.long argument name (some (String.ofList value))
  | '-' :: c :: cs => r.short (c :: cs)
  | _ => r.plain argument

/-- All arguments. Two hyphens end them, and nothing may follow. -/
def all (r : Reading) : List String → Except ArgumentFault Given
  | [] => r.settle
  | argument :: rest =>
    if argument = "--" then
      match rest with
      | [] => r.settle
      | extra :: _ => .error (.unknown extra)
    else do (← r.next argument).all rest

end Reading

/-- The arguments that the words of a command line denote. -/
def parse (words : List String) : Except ArgumentFault Arguments := do
  (← Reading.start.all words).check

end Arguments

/-! ## Overriding settings -/

/-- Why settings cannot be overridden. -/
inductive OverrideFault where
  | noPollInterval
  /-- The tolerance is wider than the lookback. -/
  | wideTolerance (tolerance lookback : UInt64)
  deriving DecidableEq

/-- The parts of a message, each saying why the one before it came about. -/
def OverrideFault.causes : OverrideFault → List String
  | .noPollInterval => ["--poll-interval-ms must be greater than zero"]
  | .wideTolerance tolerance lookback =>
    ["--tolerance-secs is wider than the scheduler lookback",
      Settings.windowMessage tolerance lookback]

/-- The product, or the greatest word where it is greater. -/
def saturatingMul (n : UInt64) (k : Nat) : UInt64 :=
  .ofNat (min (n.toNat * k) 18446744073709551615)

namespace Arguments

/-- The settings with the values that the arguments give in their place. -/
def replaced (a : Arguments) (s : Settings) : Settings :=
  { s with
    pollMs := a.pollMs.getD s.pollMs
    toleranceMs := (a.toleranceSecs.map (saturatingMul · 1000)).getD s.toleranceMs
    ackWindowMs := (a.ackWindowMins.map (saturatingMul · 60000)).getD s.ackWindowMs }

/-- The settings overridden by the arguments. -/
def override (a : Arguments) (s : Settings) : Except OverrideFault Settings :=
  if a.pollMs = some 0 then .error .noPollInterval
  else
    let s := a.replaced s
    if s.WindowFits then .ok s else .error (.wideTolerance s.toleranceMs s.lookbackMs)

end Arguments

end Reveille
