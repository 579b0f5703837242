import Reveille.CommandLine.Command
import Reveille.CommandLine.Report
import Reveille.Session.Acknowledger
import Reveille.Session.Outlook
import Reveille.Session.Tick
import Reveille.Text.Utf8

/-!
# Dialogues

What is said to a user while a session runs. A `Dialogue` remembers the occurrence that was
announced last, which is the one that an acknowledgment is for; before the first
announcement it is the latest wake-up, unless that is acknowledged.

`Dialogue.hear` turns a notice into lines, and `Dialogue.reply` answers a line of input,
with nothing once the user quits. `Dialogue.converse` goes through a session that ticks
once before the user says anything, and not again.
-/

namespace Reveille

open Activity Text

structure Dialogue where
  user : String
  zone : Zone
  dial : Dial
  acknowledger : Acknowledger
  /-- The occurrence that was announced last. -/
  lastTrigger : Option Instant
  deriving DecidableEq

namespace Dialogue

/-- The dialogue about a session. -/
def new (session : Session) (dial : Dial) : Dialogue :=
  ⟨session.user, session.zone, dial, .new session.user session.settings, none⟩

def greeting (d : Dialogue) : String :=
  "Session started for " ++ d.user ++ ". Commands: ack [photo-url], silence, status, quit"

def farewell : String := "Signed out"

def phaseLine (d : Dialogue) (phase : Phase) : String := "Phase: " ++ phase.describe d.dial d.zone

/-- What is said of a notice. -/
def hear (d : Dialogue) : Notice → List String × Dialogue
  | .announced a =>
    (["WAKE UP, " ++ a.user ++ "! Alarm for " ++ d.dial.show? d.zone a.alarmInstant
      ++ " is ringing"], { d with lastTrigger := some a.alarmInstant })
  | .changed phase => ([d.phaseLine phase], d)
  | _ => ([], d)

/-- What is said of notices one after the other. -/
def hearAll (d : Dialogue) : List Notice → List String × Dialogue
  | [] => ([], d)
  | n :: ns =>
    let (lines, d) := d.hear n
    let (more, d) := d.hearAll ns
    (lines ++ more, d)

/-! ## Acknowledging -/

/-- The occurrence that an acknowledgment is for. -/
def target (d : Dialogue) : Activity (Except StoreFault (Option Instant)) := do
  match d.lastTrigger with
  | some i => pure (.ok (some i))
  | none =>
    let latest ← d.acknowledger.latest
    pure (latest.map fun w => (w.filter fun w => !w.isAcknowledged).map Wakeup.alarmInstant)

/-- Acknowledges an occurrence, and what is said of it. -/
def acknowledgeAt (d : Dialogue) (i : Instant) (ack : Acknowledgment) : Activity String := do
  match ← d.acknowledger.acknowledge i ack with
  | .ok _ => pure ("Acknowledged wake-up for " ++ d.dial.show? d.zone i)
  | .error fault => pure ("Acknowledgment failed: " ++ fault.message)

/-- Acknowledges whatever there is to acknowledge, and what is said of it. -/
def acknowledge (d : Dialogue) (ack : Acknowledgment) : Activity String := do
  match ← d.target with
  | .error fault => pure ("Acknowledgment failed: " ++ fault.message)
  | .ok none => pure "Nothing to acknowledge"
  | .ok (some i) => d.acknowledgeAt i ack

/-! ## Lines of input -/

/-- What is said to a line of input, nothing if it ends the dialogue. -/
def reply (d : Dialogue) (now : Instant) (line : String) : Activity (Option (List String)) := do
  match Command.parse? line with
  | some .quit => pure none
  | some .status => do
    let phase ← request .shown
    pure (some [d.phaseLine phase])
  | some .silence => do
    Acknowledger.silence
    pure (some [])
  | some (.ack photo) => do
    let said ← d.acknowledge ⟨now, photo⟩
    pure (some [said])
  | none =>
    let said := trim line.toList
    pure (some (if said.isEmpty then [] else ["Unknown command: " ++ String.ofList said]))

/-- How a dialogue ends. -/
inductive Ending where
  | quit
  /-- There is no more input. -/
  | silence
  /-- A line of input is no text. -/
  | badInput (fault : Utf8.Fault)
  deriving DecidableEq, Repr

/-- What is said to the lines of input one after the other, while the clock stands still. -/
def replies (d : Dialogue) (limit : Nat) (now : Instant) :
    List (Except Utf8.Fault String) → Rehearsal → List String × Ending × Rehearsal
  | [], s => ([], .silence, s)
  | .error fault :: _, s => ([], .badInput fault, s)
  | .ok line :: rest, s =>
    match (d.reply now line).runAt limit 0 s with
    | (none, _, s) => ([], .quit, s)
    | (some said, _, s) =>
      let (more, ending, s) := d.replies limit now rest s
      (said ++ more, ending, s)

/-- What has become of a dialogue. -/
structure Transcript where
  /-- What is said before the first line of input. -/
  opening : List String
  /-- What is said from then on. -/
  rest : List String
  ending : Ending
  state : Rehearsal

/-- A dialogue up to its end. The session is signed out unless the input is no text. -/
def converse (session : Session) (dial : Dial) (now : Instant)
    (input : List (Except Utf8.Fault String)) (s : Rehearsal) : Transcript :=
  let limit := session.settings.writeTimeout
  let (_, _, s) := Session.opening.runAt limit 0 s
  let before := s.notices.length
  let (_, _, s) := (session.tick now).runAt limit 0 s
  let heard := (s.notices.take (s.notices.length - before)).reverse.map Prod.snd
  let d := Dialogue.new session dial
  let (said, d) := d.hearAll heard
  match d.replies limit now input s with
  | (replies, .badInput fault, s) => ⟨d.greeting :: said, replies, .badInput fault, s⟩
  | (replies, ending, s) =>
    let (_, _, s) := Session.closing.runAt limit 0 s
    ⟨d.greeting :: said, replies ++ [farewell], ending, s⟩

end Dialogue

/-- The lines of input in bytes, as far as they are text. -/
def inputLines (bytes : List UInt8) : List (Except Utf8.Fault String) :=
  (Utf8.lines bytes).map fun line => (Utf8.decode line).map Utf8.withoutLineEnd

end Reveille
