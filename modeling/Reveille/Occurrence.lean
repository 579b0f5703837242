import Reveille.Alarm

/-!
# Occurrences

`Alarm.nextAfter` finds the instant at which an alarm next rings after an anchor. It looks
at the anchor's local date if the alarm's time of day is still ahead of the hour and minute
shown there, else at the date after it, and from that date on at up to seven days : a day
on which clocks skip the alarm's time has no occurrence, and on a day that repeats it the
alarm rings at the first of the instants. Seconds of the anchor take no part in the choice
of the day.
-/

namespace Reveille

namespace Alarm

/-- How many days are looked at. -/
def probedDays : Nat := 7

/-- The instant at which the alarm rings on a local date, given as a day count. -/
def onDay? (alarm : Alarm) (zone : Zone) (day : Int) : Option Instant :=
  let t := LocalTime.atMinute day alarm.hour alarm.minute
  if t.InRange then zone.firstInstantAt? t else none

/-- The first day looked at, counted from the anchor's local date. -/
def firstDay (alarm : Alarm) (anchor : LocalTime) : Nat :=
  if alarm.IsAfter anchor.hour anchor.minute then 0 else 1

/-- The first of `n` days from `day` on with an occurrence. -/
def probe? (alarm : Alarm) (zone : Zone) : Nat → Int → Option Instant
  | 0, _ => none
  | n + 1, day =>
    match alarm.onDay? zone day with
    | some i => some i
    | none => probe? alarm zone n (day + 1)

/-- The next instant after `anchor` at which the alarm rings. -/
def nextAfter (alarm : Alarm) (zone : Zone) (anchor : Instant) : Except Refusal Instant :=
  let here := zone.localTime anchor
  if here.InRange then
    match alarm.probe? zone probedDays (here.dayCount + alarm.firstDay here) with
    | some i => .ok i
    | none => .error (.noOccurrence alarm here)
  else .error .outOfRange

end Alarm

end Reveille
