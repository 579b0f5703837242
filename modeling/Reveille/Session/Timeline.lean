import Reveille.Session.Acknowledger
import Reveille.Session.Outlook
import Reveille.Session.Tick

/-!
# Sessions in virtual time

A session that runs on its own ticks at the multiples of its poll interval, counted from
its start. A tick that is due while the one before it is still running starts as soon as
that one ends; if it is more than `graceMs` late the next tick is the next multiple, else
the one after the tick that was due. `Timeline.advanceTo` lets the session run up to a
time, leaving a request open that will be met only then or later.

Beside the session its user acts, one act after the other. `Timeline.perform` runs such an
activity and lets the session run wherever the activity has to wait. At one and the same
time the user comes first. `Timeline.signOut` ends the session, even in the middle of a
tick.
-/

namespace Reveille

/-! ## Activities with a horizon -/

/-- A request that has been made and is to be met later. -/
structure Waiting (α : Type) where
  due : Nat
  request : Request
  fate : Fate
  next : request.Result → Activity α

/-- How far an activity has come. -/
inductive Progress (α : Type) where
  | finished (time : Nat) (a : α)
  | waiting (w : Waiting α)

/-- The activity from a time on, as far as requests are met at once or before `horizon`. -/
def Activity.advance {α : Type} (limit horizon : Nat) :
    Activity α → Nat → Rehearsal → Progress α × Rehearsal
  | .done a, time, s => (.finished time a, s)
  | .ask r next, time, s =>
    let (due, fate, s) := s.make limit time r
    if due = time ∨ due < horizon then
      let (result, s) := s.meet due fate r
      (next result).advance limit horizon due s
    else (.waiting ⟨due, r, fate, next⟩, s)

/-- The rest of an activity once its open request is met, if that is before `horizon`. -/
def Waiting.advance {α : Type} (limit horizon : Nat) (w : Waiting α) (s : Rehearsal) :
    Progress α × Rehearsal :=
  if w.due < horizon then
    let (result, s) := s.meet w.due w.fate w.request
    (w.next result).advance limit horizon w.due s
  else (.waiting w, s)

/-! ## The ticks of a session -/

/-- By how many milliseconds a tick may be late without a later one being left out. -/
def graceMs : Nat := 5

/-- When the tick is due after one that was due at `due` and started at `start`. -/
def nextDue (interval due start : Nat) : Nat :=
  if due + graceMs < start then start + interval - (start - due) % interval
  else due + interval

theorem lt_nextDue {interval due start : Nat} (hi : 0 < interval) (h : due ≤ start) :
    due < nextDue interval due start := by
  unfold nextDue
  split
  · have := Nat.mod_lt (start - due) hi
    omega
  · omega

/-- What comes of a tick, and the session after it. -/
abbrev Ticked := Except SessionFault TickReport × Session

/-- Where a session stands between or within its ticks. -/
inductive Standing where
  /-- The next tick is due, but the session is not free before another time. -/
  | resting (due free : Nat) (session : Session)
  /-- A tick is running, and the next one is due. -/
  | ticking (due : Nat) (w : Waiting Ticked)

/-- A session and its surroundings over time. -/
structure Timeline where
  /-- What the clock shows at the start. -/
  start : Instant
  settings : Settings
  standing : Standing
  state : Rehearsal
  /-- What has come of the ticks, the last first. -/
  reports : List (Except SessionFault TickReport)

namespace Timeline

/-- What the clock shows. -/
def clock? (start : Instant) (time : Nat) : Option Instant := start.shift? (.ofMillis time)

/-- The tick that starts at a time. -/
def tickAt (start : Instant) (session : Session) (time : Nat) : Activity Ticked :=
  match clock? start time with
  | some now => session.tick now
  | none => .done (.error (.refused .outOfRange), session)

theorem pollInterval_pos (settings : Settings) : 0 < settings.pollInterval := by
  unfold Settings.pollInterval
  omega

/-- The ticks that start before `horizon`. -/
def ticks (t : Timeline) (horizon due free : Nat) (session : Session) : Timeline :=
  let begins := max due free
  if begins < horizon then
    let next := nextDue t.settings.pollInterval due begins
    let activity := tickAt t.start session begins
    match activity.advance t.settings.writeTimeout horizon begins t.state with
    | (.finished ends (report, session), state) =>
      { t with state, reports := report :: t.reports }.ticks horizon next ends session
    | (.waiting w, state) => { t with state, standing := .ticking next w }
  else { t with standing := .resting due free session }
termination_by horizon - due
decreasing_by
  have h := lt_nextDue (pollInterval_pos t.settings) (Nat.le_max_left due free)
  omega

/-- The session has run up to a time. -/
def advanceTo (t : Timeline) (horizon : Nat) : Timeline :=
  match t.standing with
  | .resting due free session => t.ticks horizon due free session
  | .ticking due w =>
    match w.advance t.settings.writeTimeout horizon t.state with
    | (.finished ends (report, session), state) =>
      { t with state, reports := report :: t.reports }.ticks horizon due ends session
    | (.waiting w, state) => { t with state, standing := .ticking due w }

/-- An activity of the user, from a time on. -/
def perform {α : Type} : Activity α → Nat → Timeline → α × Nat × Timeline
  | .done a, time, t => (a, time, t)
  | .ask r next, time, t =>
    let (due, fate, state) := t.state.make t.settings.writeTimeout time r
    let t := { t with state }.advanceTo due
    let (result, state) := t.state.meet due fate r
    perform (next result) due { t with state }

/-- A session that has just begun. -/
def begin (start : Instant) (session : Session) (state : Rehearsal) : Timeline :=
  let ((), _, state) := Session.opening.runAt session.settings.writeTimeout 0 state
  ⟨start, session.settings, .resting 0 0 session, state, []⟩

/-- The user does something at a time, or as soon as what was done before has ended. -/
def actAt {α : Type} (t : Timeline) (free time : Nat) (activity : Option Instant → Activity α) :
    α × Nat × Timeline :=
  let begins := max free time
  perform (activity (clock? t.start begins)) begins (t.advanceTo begins)

/-- The session is ended at a time. -/
def signOut (t : Timeline) (time : Nat) : Timeline :=
  let t := t.advanceTo time
  let ((), _, state) := Session.closing.runAt t.settings.writeTimeout time t.state
  { t with state }

end Timeline

end Reveille
