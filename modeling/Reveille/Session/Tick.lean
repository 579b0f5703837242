import Reveille.Scheduler
import Reveille.Session.Activity

/-!
# Ticks

A `Session` watches over the alarm of one user. At every tick it tries again to save the
wake-ups that it could not save before, asks for the alarm, and lets the scheduler decide.
If an occurrence rings it is published as fired, its record is saved, the alarm is sounded
and announced, in this order; a record that cannot be saved is kept for later. Last the
phase is found anew and shown.
-/

namespace Reveille

open Activity

structure Session where
  user : String
  zone : Zone
  settings : Settings
  scheduler : Scheduler
  /-- Wake-ups that are still to be saved, in the order in which they fired. -/
  unsaved : List Wakeup
  deriving DecidableEq

/-- What comes of a tick. -/
structure TickReport where
  decision : Decision
  phase : Phase
  /-- How many wake-ups are still to be saved. -/
  unsaved : Nat
  deriving DecidableEq

namespace Session

/-- A session in which nothing has happened. -/
def new (user : String) (zone : Zone) (settings : Settings) : Session :=
  ⟨user, zone, settings, .ofSettings settings, []⟩

/-- How a session begins. -/
def opening : Activity Unit := do
  let _ ← request (.sound .playSilent)

/-- How a session ends. -/
def closing : Activity Unit := do
  let _ ← request (.sound .stop)

/-- Saves a wake-up, or keeps it for later. -/
def save (s : Session) (w : Wakeup) : Activity Session := do
  match ← request (.upsert s.user w) with
  | some (.ok _) => pure s
  | _ => pure { s with unsaved := s.unsaved ++ [w] }

/-- Tries again to save wake-ups. -/
def saveAll (s : Session) : List Wakeup → Activity Session
  | [] => pure s
  | w :: ws => do
    let s ← s.save w
    s.saveAll ws

/-- Tries again to save what could not be saved before. -/
def retry (s : Session) : Activity Session := { s with unsaved := [] }.saveAll s.unsaved

/-- Lets an occurrence ring. -/
def ring (s : Session) (trigger : Instant) : Activity Session := do
  request (.fire trigger)
  let s ← s.save (.pending trigger)
  let _ ← request (.sound (.setVolume s.settings.volume))
  let _ ← request (.sound .playAlarm)
  request (.announce ⟨s.user, trigger⟩)
  pure s

/-- Does what a decision calls for. -/
def act (s : Session) (decision : Decision) : Activity Session :=
  match decision.ringing? with
  | some trigger => s.ring trigger
  | none => pure s

/-- The phase of a session in which `next` is the next occurrence of the alarm. -/
def findPhase (s : Session) (next : Option Instant) (now : Instant) : Activity Phase := do
  let reply ← request (.latest s.user)
  let stored := (inTime s.settings.writeTimeout reply).toOption.join
  let ringing ← request .isRinging
  pure ((AckPolicy.ofSettings s.settings).phase next (Wakeup.newest stored s.unsaved.getLast?)
    ringing now)

/-- The next occurrence of the alarm, if one is set. -/
def nextTrigger (s : Session) (alarm : Option Alarm) (now : Instant) :
    Except Refusal (Option Instant) :=
  match alarm with
  | some alarm => (s.scheduler.nextTrigger alarm s.zone now).map some
  | none => .ok none

/-- Finds the phase and shows it. -/
def refresh (s : Session) (alarm : Option Alarm) (now : Instant) :
    Activity (Except Refusal Phase) := do
  match s.nextTrigger alarm now with
  | .error refusal => pure (.error refusal)
  | .ok next =>
    let phase ← s.findPhase next now
    request (.show phase)
    pure (.ok phase)

/-- What a session does with the alarm that it has been told. -/
def follow (s : Session) (alarm : Option Alarm) (now : Instant) :
    Activity (Except SessionFault TickReport × Session) := do
  match s.scheduler.evaluate s.zone now alarm with
  | .error refusal => pure (.error (.refused refusal), s)
  | .ok (decision, scheduler) =>
    let s ← { s with scheduler }.act decision
    match ← s.refresh alarm now with
    | .error refusal => pure (.error (.refused refusal), s)
    | .ok phase => pure (.ok ⟨decision, phase, s.unsaved.length⟩, s)

/-- One look at the clock, which shows `now`, and the session after it. -/
def tick (s : Session) (now : Instant) :
    Activity (Except SessionFault TickReport × Session) := do
  let s ← s.retry
  match inTime s.settings.writeTimeout (← request (.alarmOf s.user)) with
  | .error fault => pure (.error (.store fault), s)
  | .ok alarm => s.follow alarm now

end Session

end Reveille
