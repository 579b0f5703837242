import Reveille.Alarm

/-!
# Wake-ups

A `Wakeup` is one occurrence of an alarm : the instant at which it rings and, once the user
has got up, the acknowledgment. A wake-up is acknowledged at most once : `acknowledge`
refuses a second time, and `merge`, which joins two records of one occurrence, keeps the
acknowledgment of the first.
-/

namespace Reveille

/-- That the user has got up, with a photo to show for it. -/
structure Acknowledgment where
  instant : Instant
  photo : Option String
  deriving DecidableEq

/-- One occurrence of an alarm. -/
structure Wakeup where
  alarmInstant : Instant
  acknowledgment : Option Acknowledgment
  deriving DecidableEq

namespace Wakeup

/-- An occurrence that nobody has acknowledged yet. -/
def pending (alarmInstant : Instant) : Wakeup := ⟨alarmInstant, none⟩

def isAcknowledged (w : Wakeup) : Bool := w.acknowledgment.isSome

/-- The wake-up with its first acknowledgment. -/
def acknowledge (w : Wakeup) (a : Acknowledgment) : Except Refusal Wakeup :=
  match w.acknowledgment with
  | none => .ok { w with acknowledgment := some a }
  | some _ => .error (.alreadyAcknowledged w.alarmInstant)

/-- A wake-up is acknowledged if it is not yet. -/
theorem acknowledge_eq_ok_iff {v w : Wakeup} {a : Acknowledgment} :
    v.acknowledge a = .ok w ↔ v = .pending v.alarmInstant ∧ w = ⟨v.alarmInstant, some a⟩ := by
  unfold acknowledge pending
  cases v with
  | mk i acknowledgment => cases acknowledgment <;> simp [eq_comm]

/-- One record out of two of the same occurrence. -/
def merge (w incoming : Wakeup) : Wakeup :=
  { w with acknowledgment := w.acknowledgment.or incoming.acknowledgment }

/-- The later of two wake-ups, joined if they are of one occurrence. -/
def newest : Option Wakeup → Option Wakeup → Option Wakeup
  | some v, some w =>
    if v.alarmInstant = w.alarmInstant then some (v.merge w)
    else if w.alarmInstant < v.alarmInstant then some v
    else some w
  | v, w => v.or w

end Wakeup

end Reveille
