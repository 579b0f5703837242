import Reveille.Settings
import Reveille.Wakeup

/-!
# Phases

Where a user stands between an alarm and the next. A wake-up that is not acknowledged is
active within the acknowledgment window around its instant, and beyond it as long as the
alarm is to be heard. An acknowledged one shows for twenty-four hours, provided that an
alarm is set.
-/

namespace Reveille

inductive Phase where
  | noAlarm
  | alarmSet (next : Instant)
  | active (alarmInstant : Instant)
  | acknowledged (alarmInstant : Instant)
  deriving DecidableEq

/-- For how long a wake-up is active. -/
structure AckPolicy where
  window : Span
  deriving DecidableEq

namespace AckPolicy

def ofSettings (s : Settings) : AckPolicy := ⟨s.ackWindow⟩

/-- The wake-up is active; `ringing` tells that the alarm is to be heard. -/
def IsActive (policy : AckPolicy) (w : Wakeup) (ringing : Bool) (now : Instant) : Prop :=
  w.isAcknowledged = false ∧ ((now.since w.alarmInstant).abs ≤ policy.window ∨ ringing = true)

instance (policy : AckPolicy) (w : Wakeup) (ringing : Bool) (now : Instant) :
    Decidable (policy.IsActive w ringing now) :=
  inferInstanceAs (Decidable (w.isAcknowledged = false ∧
    ((now.since w.alarmInstant).abs ≤ policy.window ∨ ringing = true)))

/-- The wake-up is acknowledged and less than a day old. -/
def IsFresh (w : Wakeup) (now : Instant) : Prop :=
  w.isAcknowledged = true ∧ now.since w.alarmInstant < Span.day

instance (w : Wakeup) (now : Instant) : Decidable (IsFresh w now) :=
  inferInstanceAs (Decidable (w.isAcknowledged = true ∧ now.since w.alarmInstant < Span.day))

/-- The phase of a user who has no wake-up to show for it, with the next occurrence of the
alarm if one is set. -/
def idle : Option Instant → Phase
  | some next => .alarmSet next
  | none => .noAlarm

/-- The phase of a user with the latest wake-up. -/
def phase (policy : AckPolicy) (next : Option Instant) (latest : Option Wakeup)
    (ringing : Bool) (now : Instant) : Phase :=
  match latest with
  | none => idle next
  | some w =>
    if policy.IsActive w ringing now then .active w.alarmInstant
    else if next.isSome ∧ IsFresh w now then .acknowledged w.alarmInstant
    else idle next

end AckPolicy

end Reveille
