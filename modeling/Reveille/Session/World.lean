import Reveille.Session.Activity
import Reveille.Store.Alarms
import Reveille.Store.Wakeups

/-!
# The surroundings of a session

A `World` is what activities act on. `World.answer` performs one request, whose `Fate` says
whether the target deals with it, is down, or is given up after too long a time; a call of
the wake-up store that is given up may have got anywhere. What others notice of a request,
sounds, announcements and changes of the phase, is a `Notice`.
-/

namespace Reveille

/-- How many announcements wait for the listener. -/
def announcementLimit : Nat := 16

structure World where
  alarms : AlarmStore
  wakeups : WakeupStore
  player : Player
  /-- The occurrence that fired last. -/
  fired : Option Instant
  /-- The phase on show. -/
  phase : Phase
  /-- Announcements that the listener has not taken yet. -/
  announced : List Announcement
  /-- There is a listener. -/
  listening : Bool
  deriving DecidableEq

namespace World

/-- The surroundings of a new session. -/
def new (alarms : AlarmStore) (wakeups : WakeupStore) : World :=
  ⟨alarms, wakeups, .initial, none, .noAlarm, [], true⟩

/-- The announcement can be delivered. -/
def takesAnnouncement (w : World) : Bool :=
  w.listening && decide (w.announced.length < announcementLimit)

end World

/-- How a request fares. -/
inductive Fate where
  /-- The target deals with it. -/
  | answered
  /-- The target cannot be reached. -/
  | down (reason : String)
  /-- The target deals with it, but a file cannot be written. -/
  | unwritten (fault : FileFault)
  /-- The target takes too long. -/
  | givenUp (stage : UpsertStage)
  deriving DecidableEq

/-- The reply of a store that can answer at once. -/
def Fate.reply {α : Type} (fate : Fate) (value : α) : Reply α :=
  match fate with
  | .answered => some (.ok value)
  | .unwritten _ => some (.ok value)
  | .down reason => some (.error (.unavailable reason))
  | .givenUp _ => none

namespace World

/-- The reply to an upsert, and the store after it. -/
def upsert (store : WakeupStore) (user : String) (w : Wakeup) :
    Fate → Reply Wakeup × WakeupStore
  | .answered => let (reply, store) := store.upsert user w (.ok ()); (some reply, store)
  | .unwritten fault =>
    let (reply, store) := store.upsert user w (.error fault)
    (some reply, store)
  | .down reason => (some (.error (.unavailable reason)), store)
  | .givenUp stage => (none, store.abandon user w stage)

/-- What a player says to a command, and the player after it. -/
def sound (player : Player) (command : SoundCommand) :
    Fate → Except SoundFault Unit × Player
  | .down _ => (.error .locked, player)
  | _ =>
    match player.obey command with
    | .ok player => (.ok (), player)
    | .error fault => (.error fault, player)

/-- The result of a request, and the surroundings after it. -/
def answer (world : World) (fate : Fate) : (r : Request) → r.Result × World
  | .alarmOf user => (fate.reply (world.alarms.alarmOf? user), world)
  | .latest user => (fate.reply (world.wakeups.latest? user), world)
  | .upsert user w =>
    let (reply, wakeups) := upsert world.wakeups user w fate
    (reply, { world with wakeups })
  | .sound command =>
    let (reply, player) := sound world.player command fate
    (reply, { world with player })
  | .isRinging => (world.player.isRinging, world)
  | .lastFired => (world.fired, world)
  | .fire i => ((), { world with fired := some i })
  | .announce a =>
    ((), if world.takesAnnouncement then { world with announced := world.announced ++ [a] }
      else world)
  | .show phase => ((), { world with phase })
  | .shown => (world.phase, world)

end World

/-! ## Notices -/

/-- What others notice of a request. -/
inductive Notice where
  /-- The alarm has been asked for. -/
  | looked
  /-- The player has been told something, and what kept it from following. -/
  | sounded (command : SoundCommand) (fault : Option SoundFault)
  | announced (a : Announcement)
  /-- Another phase is on show. -/
  | changed (phase : Phase)
  deriving DecidableEq

/-- What is noticed of a request once it has been answered in a world. -/
def Request.notice? (world : World) : (r : Request) → r.Result → Option Notice
  | .sound command, .ok () => some (.sounded command none)
  | .sound command, .error fault => some (.sounded command (some fault))
  | .announce a, () => if world.takesAnnouncement then some (.announced a) else none
  | .show phase, () => if phase = world.phase then none else some (.changed phase)
  | _, _ => none

end Reveille
