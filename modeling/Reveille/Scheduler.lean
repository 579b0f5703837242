import Reveille.Occurrence
import Reveille.Settings

/-!
# The scheduler

At every look at the clock a `Scheduler` decides whether an alarm rings. It searches the
next occurrence from an anchor, the present less the lookback, so that an occurrence which
has just passed is still found. An occurrence within the tolerance of the present rings
once : its key, the Unix time in milliseconds, is kept among the handled ones.
-/

namespace Reveille

open Text

/-! ## Handled occurrences -/

/-- The keys of the occurrences that have rung. -/
structure Handled where
  keys : List Int
  deriving DecidableEq, Repr

namespace Handled

def empty : Handled := ⟨[]⟩

/-- The key of an occurrence as text. -/
def keyText (i : Instant) : String :=
  "occurrence@" ++ String.ofList (integer i.unixMillis)

/-- The occurrence is among the handled ones. -/
def Contains (h : Handled) (i : Instant) : Prop := i.unixMillis ∈ h.keys

instance (h : Handled) (i : Instant) : Decidable (h.Contains i) :=
  inferInstanceAs (Decidable (i.unixMillis ∈ h.keys))

/-- The handled occurrences with one more. -/
def insert (h : Handled) (i : Instant) : Handled := ⟨i.unixMillis :: h.keys⟩

end Handled

/-! ## Decisions -/

/-- What becomes of an alarm at a look at the clock. -/
inductive Decision where
  | noAlarm
  /-- The next occurrence is outside the tolerance. -/
  | notImminent (trigger : Instant)
  /-- The occurrence has rung before. -/
  | alreadyHandled (trigger : Instant)
  /-- The occurrence rings now. -/
  | triggered (trigger : Instant)
  deriving DecidableEq

/-- The occurrence that rings now. -/
def Decision.ringing? : Decision → Option Instant
  | .triggered trigger => some trigger
  | _ => none

structure Scheduler where
  tolerance : Span
  lookback : Span
  handled : Handled
  deriving DecidableEq

namespace Scheduler

/-- A scheduler for which nothing has rung. -/
def ofSettings (s : Settings) : Scheduler := ⟨s.tolerance, s.lookback, .empty⟩

/-- The occurrence that the scheduler is waiting for. -/
def nextTrigger (s : Scheduler) (alarm : Alarm) (zone : Zone) (now : Instant) :
    Except Refusal Instant :=
  match now.shift? (-s.lookback) with
  | some anchor => alarm.nextAfter zone anchor
  | none => .error .outOfRange

/-- The decision on an occurrence, and the scheduler after it. -/
def decide (s : Scheduler) (trigger now : Instant) : Decision × Scheduler :=
  if s.tolerance < (now.since trigger).abs then (.notImminent trigger, s)
  else if s.handled.Contains trigger then (.alreadyHandled trigger, s)
  else (.triggered trigger, { s with handled := s.handled.insert trigger })

/-- The decision on an alarm, and the scheduler after it. -/
def evaluate (s : Scheduler) (zone : Zone) (now : Instant) :
    Option Alarm → Except Refusal (Decision × Scheduler)
  | none => .ok (.noAlarm, s)
  | some alarm => (s.nextTrigger alarm zone now).map fun trigger => s.decide trigger now

end Scheduler

end Reveille
