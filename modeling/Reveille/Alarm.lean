import Reveille.Instant.Text

/-!
# Alarms

An `Alarm` is a time of day, hour and minute, at which a user wants to be woken every day.
Its type holds no time that a clock does not show : `Alarm.make` refuses other hours and
minutes, and `Alarm.parse` reads a text such as `7:05` through it.

A `Refusal` is a reason for which alarms and wake-ups turn an operation down.
-/

namespace Reveille

open Text

/-- A time of day, repeated daily. -/
structure Alarm where
  hour : Fin 24
  minute : Fin 60
  deriving DecidableEq, Repr

/-! ## Refusals -/

/-- Why an operation on alarms or wake-ups is turned down. -/
inductive Refusal where
  /-- No clock shows this hour and minute. -/
  | notTimeOfDay (hour minute : Nat)
  /-- The text does not have the form of a time of day. -/
  | notTimeText (text : String)
  /-- The alarm's local time exists on none of the days looked at after the anchor. -/
  | noOccurrence (alarm : Alarm) (anchor : LocalTime)
  /-- Nothing has rung at this instant. -/
  | notTriggered (alarmInstant : Instant)
  | alreadyAcknowledged (alarmInstant : Instant)
  /-- A later wake-up has taken the place of this one. -/
  | superseded (alarmInstant latest : Instant)
  /-- The date arithmetic leaves the supported range. -/
  | outOfRange
  deriving DecidableEq

/-! ## Hours and minutes -/

namespace Alarm

/-- The alarm at an hour and a minute. -/
def make (hour minute : Nat) : Except Refusal Alarm :=
  if h : hour < 24 ∧ minute < 60 then .ok ⟨⟨hour, h.1⟩, ⟨minute, h.2⟩⟩
  else .error (.notTimeOfDay hour minute)

/-- Two digits for the hour and two for the minute. -/
def text (alarm : Alarm) : String :=
  String.ofList (padded 2 alarm.hour ++ ':' :: padded 2 alarm.minute)

/-- The alarm's time of day comes after `hour:minute`. -/
def IsAfter (alarm : Alarm) (hour minute : Nat) : Prop :=
  hour < alarm.hour ∨ (hour = alarm.hour ∧ minute < alarm.minute)

instance (alarm : Alarm) (hour minute : Nat) : Decidable (alarm.IsAfter hour minute) :=
  inferInstanceAs (Decidable (hour < alarm.hour ∨ (hour = alarm.hour ∧ minute < alarm.minute)))

/-- The hour and minute that a local clock shows. -/
def ofLocalTime (t : LocalTime) : Alarm where
  hour := ⟨t.hour, by
    unfold LocalTime.hour LocalTime.secondOfDay
    omega⟩
  minute := ⟨t.minute, by
    unfold LocalTime.minute
    omega⟩

/-! ## Reading -/

/-- The greatest number that a side of the colon may denote. -/
def sideLimit : Nat := 4294967295

/-- The parts of a text before and after its first colon. -/
def splitColon (cs : List Char) : Option (List Char × List Char) :=
  match cs.dropWhile (· != ':') with
  | [] => none
  | _ :: after => some (cs.takeWhile (· != ':'), after)

/-- The hour and the minute of a text : numbers on both sides of its first colon, blanks
around it aside. -/
def readSides (cs : List Char) : Option (Nat × Nat) :=
  match splitColon (trim cs) with
  | none => none
  | some (before, after) =>
    match readNatural sideLimit before, readNatural sideLimit after with
    | .ok hour, .ok minute => some (hour, minute)
    | _, _ => none

/-- The alarm that a text denotes. -/
def parse (text : String) : Except Refusal Alarm :=
  match readSides text.toList with
  | some (hour, minute) => make hour minute
  | none => .error (.notTimeText text)

end Alarm

/-! ## Wording -/

def Refusal.message : Refusal → String
  | .notTimeOfDay hour minute =>
    "invalid alarm configuration: " ++ String.ofList (padded 2 hour) ++ ":"
      ++ String.ofList (padded 2 minute) ++ " is not a valid time of day"
  | .notTimeText text => "invalid alarm time '" ++ text ++ "', expected HH:MM"
  | .noOccurrence alarm anchor =>
    "alarm " ++ alarm.text ++ " has no valid local occurrence after " ++ anchor.text
  | .notTriggered alarmInstant =>
    "wakeup at " ++ alarmInstant.text ++ " has not been triggered"
  | .alreadyAcknowledged alarmInstant =>
    "wakeup at " ++ alarmInstant.text ++ " is already acknowledged"
  | .superseded alarmInstant latest =>
    "wakeup at " ++ alarmInstant.text ++ " was superseded by the wakeup at " ++ latest.text
  | .outOfRange => "the date is out of range"

end Reveille
