import Reveille.Session.Acknowledger
import Reveille.Session.Tick
import Reveille.Proofs.Session.Ensures

/-!
# The course of a session

The course of a session is what is done with it, one thing after another : ticks at any
readings of the clock, acknowledgments and silences by its user, and changes around it, of the
alarms that are set and of who listens. Each deed comes with the fates of its requests.
`Scene.run` runs through a course and keeps a log of what has come of each deed and what others
have noticed of it. What holds at the start and is kept by every deed holds after every course
(`Scene.run_induction`).
-/

namespace Reveille

/-- Something done with a session or around it. -/
inductive Deed where
  /-- A tick at which the clock shows `now`. -/
  | tick (now : Instant)
  | acknowledge (alarmInstant : Instant) (ack : Acknowledgment)
  | silence
  /-- The alarms that are set change. -/
  | setAlarms (alarms : AlarmStore)
  /-- The listener takes the announcements that wait, and stays or leaves. -/
  | listen (stays : Bool)
  deriving DecidableEq

/-- What comes of a deed. -/
inductive Outcome where
  | ticked (report : Except SessionFault TickReport)
  | acknowledged (reply : Except SessionFault Wakeup)
  | done

/-- A deed, what has come of it and what has been noticed of it. -/
structure Entry where
  deed : Deed
  outcome : Outcome
  notices : List Notice

namespace Entry

/-- What a tick has decided, if it has not failed. -/
def decision? (e : Entry) : Option Decision :=
  match e.outcome with
  | .ticked (.ok report) => some report.decision
  | _ => none

/-- The occurrence that a tick has let ring. -/
def ringing? (e : Entry) : Option Instant := e.decision?.bind Decision.ringing?

end Entry

/-- The occurrences that have rung, in order. -/
def rung (log : List Entry) : List Instant := log.filterMap Entry.ringing?

/-- What others have noticed, in order. -/
def noticed (log : List Entry) : List Notice := log.flatMap Entry.notices

theorem rung_concat (log : List Entry) (e : Entry) :
    rung (log ++ [e]) = rung log ++ e.ringing?.toList := by
  unfold rung
  rw [List.filterMap_append]
  cases h : e.ringing? <;> simp [h]

/-! ## Courses -/

/-- A session and its surroundings between two deeds. -/
structure Scene where
  session : Session
  world : World

namespace Scene

/-- A new session in a world : nothing has fired, no phase is shown yet, and the listener is
there. -/
def start (user : String) (zone : Zone) (settings : Settings) (world : World) : Scene where
  session := .new user zone settings
  world := { world with fired := none, phase := .noAlarm, announced := [], listening := true }

/-- One deed, its requests meeting their fates. -/
def carryOut (s : Scene) (deed : Deed) (fates : List Fate) : Entry × Scene :=
  match deed with
  | .tick now =>
    let ((report, session), watch) := (s.session.tick now).runWith fates ⟨s.world, []⟩
    (⟨deed, .ticked report, watch.notices⟩, ⟨session, watch.world⟩)
  | .acknowledge alarmInstant ack =>
    let acknowledger := Acknowledger.new s.session.user s.session.settings
    let (reply, watch) := (acknowledger.acknowledge alarmInstant ack).runWith fates ⟨s.world, []⟩
    (⟨deed, .acknowledged reply, watch.notices⟩, ⟨s.session, watch.world⟩)
  | .silence =>
    let ((), watch) := Acknowledger.silence.runWith fates ⟨s.world, []⟩
    (⟨deed, .done, watch.notices⟩, ⟨s.session, watch.world⟩)
  | .setAlarms alarms => (⟨deed, .done, []⟩, ⟨s.session, { s.world with alarms }⟩)
  | .listen stays =>
    (⟨deed, .done, []⟩, ⟨s.session, { s.world with announced := [], listening := stays }⟩)

/-- What is noticed of a tick that is broken off after so many requests, the session being
ended. -/
def breakOff (s : Scene) (now : Instant) (requests : Nat) (fates : List Fate) : List Notice :=
  ((s.session.tick now).runFor requests fates ⟨s.world, []⟩).notices

/-- The log of a course, and the scene after it. -/
def run (s : Scene) : List (Deed × List Fate) → List Entry × Scene
  | [] => ([], s)
  | (deed, fates) :: rest =>
    let (entry, s) := s.carryOut deed fates
    let (log, s) := s.run rest
    (entry :: log, s)

/-- A tick that is broken off is noticed as one that is not begins to be. -/
theorem breakOff_prefix (s : Scene) (now : Instant) (requests : Nat) (fates : List Fate) :
    s.breakOff now requests fates <+: (s.carryOut (.tick now) fates).1.notices :=
  Activity.notices_runFor_prefix requests (s.session.tick now) fates ⟨s.world, []⟩

theorem run_concat (s : Scene) (course : List (Deed × List Fate)) (deed : Deed)
    (fates : List Fate) : s.run (course ++ [(deed, fates)]) =
      ((s.run course).1 ++ [((s.run course).2.carryOut deed fates).1],
        ((s.run course).2.carryOut deed fates).2) := by
  induction course generalizing s with
  | nil => rfl
  | cons step course ih =>
    obtain ⟨d, fs⟩ := step
    simp only [List.cons_append, run, ih]

/-- What holds at the start and is kept by every deed holds after every course. -/
theorem run_induction {motive : List Entry → Scene → Prop} {s : Scene} (start : motive [] s)
    (step : ∀ log s deed fates, motive log s →
      motive (log ++ [(s.carryOut deed fates).1]) (s.carryOut deed fates).2)
    (course : List (Deed × List Fate)) : motive (s.run course).1 (s.run course).2 := by
  rw [← course.reverse_reverse]
  induction course.reverse with
  | nil => exact start
  | cons d rest ih =>
    obtain ⟨deed, fates⟩ := d
    rw [List.reverse_cons, run_concat]
    exact step _ _ deed fates ih

end Scene

end Reveille
