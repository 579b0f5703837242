import Reveille.Zone
import Reveille.Text.Decimal

/-!
# Showing a time

How a trigger is shown to the user : the local date and the hour and minute, on a dial of
24 hours or on one of 12 hours with AM and PM. The hour of the small dial has no leading
zero and counts 12, 1, 2, up to 11. A missing trigger is shown as a hyphen.
-/

namespace Reveille

open Text

/-- The dial a time is shown on. -/
inductive Dial where
  | hours24
  | hours12
  deriving DecidableEq, Repr

namespace Dial

/-- Year, month and day. -/
def dateText (t : LocalTime) : List Char :=
  let d := t.date
  paddedInt 4 d.year ++ '-' :: padded 2 d.month ++ '-' :: padded 2 d.day

/-- The hour on a dial of twelve. -/
def twelve (hour : Nat) : Nat := if hour % 12 = 0 then 12 else hour % 12

/-- Local date, hour and minute. -/
def textOf (dial : Dial) (t : LocalTime) : String :=
  String.ofList <| match dial with
    | .hours24 => dateText t ++ ' ' :: padded 2 t.hour ++ ':' :: padded 2 t.minute
    | .hours12 =>
      dateText t ++ ' ' :: digits (twelve t.hour) ++ ':' :: padded 2 t.minute
        ++ ' ' :: (if t.hour < 12 then 'A' else 'P') :: ['M']

/-- A trigger as the local clocks of a zone show it. -/
def show? (dial : Dial) (zone : Zone) : Option Instant → String
  | some i => dial.textOf (zone.localTime i)
  | none => "-"

end Dial

end Reveille
