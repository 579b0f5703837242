import Reveille.CommandLine.Program
import Reveille.Session.Timeline
import Reveille.Zone.Sampled
import Std.Time.Zoned.Database

/-!
# The program on a machine

The host of the program : the files, the clock and the zone of the machine, standard input
and standard output. A session ticks at the multiples of its poll interval, and between the
ticks the lines of input are answered in the order in which they arrive.
-/

namespace Reveille.Machine

open Text Std.Time

/-! ## Files -/

/-- Why a file cannot be read or written. -/
def fileFault : IO.Error → FileFault
  | .noFileOrDirectory _ _ _ => .missing
  | .inappropriateType _ number wording =>
    if number = 21 then .isDirectory else .system number.toNat wording
  | .alreadyExists _ number wording | .invalidArgument _ number wording
  | .permissionDenied _ number wording | .resourceExhausted _ number wording
  | .noSuchThing _ number wording => .system number.toNat wording
  | .otherError number wording | .resourceBusy number wording
  | .resourceVanished number wording | .unsupportedOperation number wording
  | .hardwareFault number wording | .unsatisfiedConstraints number wording
  | .illegalOperation number wording | .protocolError number wording
  | .timeExpired number wording | .interrupted _ number wording =>
    .system number.toNat wording
  | .unexpectedEof => .system 5 "Input/output error"
  | .userError wording => .system 5 wording

def read (path : String) : IO (Except FileFault String) := do
  match ← (IO.FS.readBinFile path).toBaseIO with
  | .ok bytes => pure ((Utf8.decode bytes.toList).mapError fun _ => .notText)
  | .error e => pure (.error (fileFault e))

def write (path text : String) : IO Write := do
  match ← (IO.FS.writeFile path text).toBaseIO with
  | .ok () => pure (.ok ())
  | .error e => pure (.error (fileFault e))

/-! ## The clock -/

def now : IO Instant := do
  let nanos := (← Timestamp.now).toNanosecondsSinceUnixEpoch.val
  match Instant.of? (nanos / secondNanos) (nanos % secondNanos).toNat with
  | some i => pure i
  | none => throw (IO.userError "the clock is out of range")

/-- The offset of the rules of a zone at a second. -/
def offsetAt (rules : TimeZone.ZoneRules) (second : Int) : Int :=
  (rules.findLocalTimeTypeForTimestamp
    (Timestamp.ofSecondsSinceUnixEpoch (.ofInt second))).gmtOffset.second.val

/-- For how many days the zone is looked up, counted from 1970-01-01. -/
def daysKnown : Nat := 40000

/-- The zone of the machine, or UTC where it is not known. -/
def zone : IO Zone := do
  match ← Database.defaultGetLocalZoneRules.toBaseIO with
  | .ok rules => pure (.sampled (offsetAt rules) 0 daysKnown)
  | .error _ => pure .utc

/-! ## Sessions -/

/-- How a request fares. -/
def fate (world : World) : Request → IO Fate
  | .upsert user w => do
    let store := world.wakeups.merge user w
    match ← write store.path store.records.fileText with
    | .ok () => pure .answered
    | .error fault => pure (.unwritten fault)
  | _ => pure .answered

/-- Runs an activity : its result, what is noticed of it, and the surroundings after it. -/
def perform {α : Type} : Activity α → World → IO (α × List Notice × World)
  | .done a, world => pure (a, [], world)
  | .ask r next, world => do
    let (result, after) := world.answer (← fate world r) r
    let (a, notices, last) ← perform (next result) after
    pure (a, (r.notice? world result).toList ++ notices, last)

/-- The next line of input with the line feed that ends it, nothing at the end of input. -/
partial def nextLine (input : IO.FS.Stream) (line : ByteArray) : IO ByteArray := do
  let byte ← input.read 1
  if byte.isEmpty then pure line
  else
    let line := line ++ byte
    if byte.toList = [10] then pure line else nextLine input line

/-- Waits for the next line beside everything else. -/
def awaitLine : IO (Task (Except IO.Error ByteArray)) := do
  IO.asTask (nextLine (← IO.getStdin) .empty) .dedicated

/-- A session, and what has been said of it. -/
structure Attendance where
  session : Session
  dialogue : Dialogue
  world : World
  /-- When the next tick is due, in milliseconds of the steady clock. -/
  due : Nat

namespace Attendance

/-- Does a tick and says what is noticed of it. -/
def tick (a : Attendance) (time : Nat) : IO Attendance := do
  let ((_, session), notices, world) ← perform (a.session.tick (← now)) a.world
  let (said, dialogue) := a.dialogue.hearAll notices
  said.forM IO.println
  let due := nextDue session.settings.pollInterval a.due time
  pure { session, dialogue, world := { world with announced := [] }, due }

/-- Answers a line of input : how the dialogue ends, if it does. -/
def hear (a : Attendance) (line : ByteArray) : IO (Option Dialogue.Ending × Attendance) := do
  match inputLines line.toList with
  | [] => pure (some .silence, a)
  | .error fault :: _ => pure (some (.badInput fault), a)
  | .ok text :: _ =>
    let (said, _, world) ← perform (a.dialogue.reply (← now) text) a.world
    let a := { a with world }
    match said with
    | none => pure (some .quit, a)
    | some said =>
      said.forM IO.println
      pure (none, a)

/-- Goes on until the dialogue ends. -/
partial def run (a : Attendance) (line : Task (Except IO.Error ByteArray)) :
    IO (Dialogue.Ending × Attendance) := do
  let time ← IO.monoMsNow
  if a.due ≤ time then (← a.tick time).run line
  else if ← IO.hasFinished line then
    match ← a.hear (← IO.ofExcept line.get) with
    | (some ending, a) => pure (ending, a)
    | (none, a) => a.run (← awaitLine)
  else
    IO.sleep 5
    a.run line

end Attendance

/-- Runs a session to its end. -/
def converse (session : Session) (dial : Dial) (world : World) : IO Dialogue.Ending := do
  let dialogue := Dialogue.new session dial
  let ((), _, world) ← perform Session.opening world
  IO.println dialogue.greeting
  let start : Attendance := { session, dialogue, world, due := ← IO.monoMsNow }
  let (ending, a) ← start.run (← awaitLine)
  match ending with
  | .badInput _ => pure ()
  | _ =>
    let _ ← perform Session.closing a.world
    IO.println Dialogue.farewell
  pure ending

def host : Host IO where
  read := read
  write := write
  say line := IO.println line
  now := now
  zone := zone
  converse := converse

end Reveille.Machine

open Reveille

def main (words : List String) : IO UInt32 := do
  let exit ← Program.run Machine.host words
  match exit with
  | .success => pure ()
  | .failure fault => IO.eprintln fault.message
  | .usage fault => IO.eprintln fault.message
  pure exit.code.toUInt32
