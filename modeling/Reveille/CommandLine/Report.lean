import Reveille.Display
import Reveille.Occurrence
import Reveille.Session.Activity

/-!
# Reports

Phases in words, and the report of a user's next trigger. The report searches from the
present, without lookback, and takes nothing to be heard.
-/

namespace Reveille

/-- A phase in words. -/
def Phase.describe (dial : Dial) (zone : Zone) : Phase → String
  | .noAlarm => "no alarm"
  | .alarmSet next => "alarm set for " ++ dial.show? zone next
  | .active i => "wake-up active since " ++ dial.show? zone i
  | .acknowledged i => "woke up for " ++ dial.show? zone i

/-- The message, followed by those of the causes behind it. -/
def SessionFault.causes : SessionFault → List String
  | .store fault => fault.causes
  | .refused refusal => [refusal.message]

namespace Report

/-- The next trigger of an alarm and the phase of a user with the latest wake-up. -/
def find (settings : Settings) (zone : Zone) (now : Instant) (alarm : Alarm)
    (latest : Except StoreFault (Option Wakeup)) : Except SessionFault (Instant × Phase) := do
  let trigger ← (alarm.nextAfter zone now).mapError .refused
  let latest ← latest.mapError .store
  .ok (trigger, (AckPolicy.ofSettings settings).phase trigger latest false now)

/-- The lines of a report, from what the stores say. -/
def lines (user : String) (settings : Settings) (zone : Zone) (dial : Dial) (now : Instant)
    (alarm : Except StoreFault (Option Alarm)) (latest : Except StoreFault (Option Wakeup)) :
    Except SessionFault (List String) := do
  match ← alarm.mapError .store with
  | none => .ok ["No alarm set for " ++ user]
  | some alarm =>
    let (trigger, phase) ← find settings zone now alarm latest
    .ok [
      "Alarm for " ++ user ++ ": " ++ alarm.text,
      "Next trigger: " ++ dial.show? zone trigger,
      "Phase: " ++ phase.describe dial zone]

end Report

end Reveille
