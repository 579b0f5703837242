import Reveille.Phase
import Reveille.Sound
import Reveille.Store.Fault

/-!
# Activities

What a session does is an `Activity` : a sequence of requests to its surroundings, each of
which may depend on the replies to those before it. The surroundings hold the two stores,
the player, the occurrence that fired last, the phase on show, and the listener to whom
ringing alarms are announced. Several activities take turns there, request by request.

A store may fail to reply within the time that it is given. `inTime` words that as a fault.
-/

namespace Reveille

/-- That the alarm of a user rings. -/
structure Announcement where
  user : String
  alarmInstant : Instant
  deriving DecidableEq

/-- What an activity asks of its surroundings. -/
inductive Request where
  /-- The alarm that a user has set. -/
  | alarmOf (user : String)
  /-- The user's wake-up with the latest alarm instant. -/
  | latest (user : String)
  /-- To join a wake-up to the records. -/
  | upsert (user : String) (w : Wakeup)
  | sound (command : SoundCommand)
  /-- Whether the alarm is to be heard. -/
  | isRinging
  /-- The occurrence that fired last. -/
  | lastFired
  /-- That an occurrence fires. -/
  | fire (i : Instant)
  | announce (a : Announcement)
  /-- To put a phase on show. -/
  | show (phase : Phase)
  /-- The phase on show. -/
  | shown
  deriving DecidableEq

/-- What a store says, nothing if it takes too long. -/
abbrev Reply (α : Type) := Option (Except StoreFault α)

/-- What comes back from a request. -/
abbrev Request.Result : Request → Type
  | .alarmOf _ => Reply (Option Alarm)
  | .latest _ => Reply (Option Wakeup)
  | .upsert _ _ => Reply Wakeup
  | .sound _ => Except SoundFault Unit
  | .isRinging => Bool
  | .lastFired => Option Instant
  | .fire _ => Unit
  | .announce _ => Unit
  | .show _ => Unit
  | .shown => Phase

/-- Requests one after the other, up to a result. -/
inductive Activity (α : Type) where
  | done (a : α)
  | ask (r : Request) (next : r.Result → Activity α)

namespace Activity

variable {α β : Type}

/-- One activity, then another. -/
def bind : Activity α → (α → Activity β) → Activity β
  | .done a, f => f a
  | .ask r next, f => .ask r fun x => (next x).bind f

instance : Monad Activity where
  pure := done
  bind := bind

/-- A single request. -/
def request (r : Request) : Activity r.Result := .ask r .done

end Activity

/-- A store's reply, its absence counting as a fault. -/
def inTime {α : Type} (limit : Nat) : Reply α → Except StoreFault α
  | some reply => reply
  | none => .error (.timedOut limit)

/-! ## Faults -/

/-- Why an activity of a session comes to nothing. -/
inductive SessionFault where
  | store (fault : StoreFault)
  | refused (refusal : Refusal)
  deriving DecidableEq

def SessionFault.message : SessionFault → String
  | .store fault => fault.message
  | .refused refusal => refusal.message

end Reveille
