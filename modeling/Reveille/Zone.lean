import Reveille.Calendar
import Reveille.Instant

/-!
# Time zones

A `Zone` says how many seconds local clocks are ahead of UTC at each instant (`offsetAt`).
It is either a table, a base offset and the transitions that replace it, or a yearly rule
with daylight time between two Sundays. A fixed offset is a table without transitions.

`localTime` reads the local clock at an instant. `instantsAt` goes the other way : the
instants at which the clock shows a local time are `local - offset`, for the offsets of the
zone that are in force there. A local time skipped by a transition has none and a repeated
one several; `firstInstantAt?` takes the earliest.
-/

namespace Reveille

/-! ## Local times -/

/-- What a clock shows : the second since 1970-01-01T00:00:00 on that clock, and a
fraction as in `Instant`. -/
structure LocalTime where
  second : Int
  nano : Nat
  deriving DecidableEq, Repr

namespace LocalTime

/-- The date, as a day count. -/
def dayCount (t : LocalTime) : Int := t.second / 86400

def date (t : LocalTime) : Date := Date.ofDays t.dayCount

def secondOfDay (t : LocalTime) : Nat := (t.second % 86400).toNat

def hour (t : LocalTime) : Nat := t.secondOfDay / 3600

def minute (t : LocalTime) : Nat := t.secondOfDay / 60 % 60

/-- The second of the minute, 60 in a leap second. -/
def secondOfMinute (t : LocalTime) : Nat :=
  t.secondOfDay % 60 + if secondNanos ≤ t.nano then 1 else 0

/-- Nanoseconds into the second shown. -/
def fraction (t : LocalTime) : Nat := t.nano % secondNanos

/-- The date lies in the supported range. -/
def InRange (t : LocalTime) : Prop :=
  Instant.firstSecond ≤ t.second ∧ t.second ≤ Instant.lastSecond

instance (t : LocalTime) : Decidable t.InRange :=
  inferInstanceAs (Decidable (Instant.firstSecond ≤ t.second ∧ t.second ≤ Instant.lastSecond))

/-- A full minute of a day. -/
def atMinute (day : Int) (hour minute : Nat) : LocalTime :=
  ⟨day * 86400 + (hour : Int) * 3600 + (minute : Int) * 60, 0⟩

end LocalTime

/-! ## Offsets -/

/-- A clock change on the `sunday`-th Sunday of a month, at a second of that day. -/
structure ClockChange where
  month : Nat
  sunday : Nat
  second : Int
  deriving DecidableEq, Repr

/-- Daylight time from one change to the other, in every year. The clock change into
daylight time is given in standard time and the one out of it in daylight time. -/
structure DaylightRule where
  standard : Int
  daylight : Int
  starts : ClockChange
  ends : ClockChange
  deriving DecidableEq, Repr

/-- The local second at which a change happens in a year. -/
def ClockChange.inYear (change : ClockChange) (year : Int) : Int :=
  Date.sunday year change.month change.sunday * 86400 + change.second

/-- Daylight time is in force. The year is that of the standard clock; where daylight time
spans the new year, its end comes before its start. -/
def DaylightRule.isDaylight (rule : DaylightRule) (i : Instant) : Bool :=
  let year := (Date.ofDays ((i.second + rule.standard) / 86400)).year
  let start := rule.starts.inYear year - rule.standard
  let stop := rule.ends.inYear year - rule.daylight
  if start < stop then start ≤ i.second && i.second < stop
  else i.second < stop || start ≤ i.second

/-- Seconds east of UTC over time. -/
inductive Zone where
  /-- `base` until the first transition, then the offset of the last transition reached. -/
  | table (base : Int) (transitions : List (Instant × Int))
  /-- Daylight time at the same Sundays of every year. -/
  | yearly (rule : DaylightRule)
  deriving DecidableEq

namespace Zone

/-- The zone with one offset. -/
def fixed (offset : Int) : Zone := .table offset []

def utc : Zone := fixed 0

/-- The offset in force at an instant. -/
def offsetAt : Zone → Instant → Int
  | .table base transitions, i =>
    transitions.foldl (fun offset t => if t.1 ≤ i then t.2 else offset) base
  | .yearly rule, i => if rule.isDaylight i then rule.daylight else rule.standard

/-- Every offset that can be in force. -/
def offsets : Zone → List Int
  | .table base transitions => base :: transitions.map Prod.snd
  | .yearly rule => [rule.standard, rule.daylight]

/-! ## Local clocks -/

/-- What local clocks show at an instant. -/
def localTime (zone : Zone) (i : Instant) : LocalTime :=
  ⟨i.second + zone.offsetAt i, i.nano⟩

/-- The instants at which local clocks show `t`, one for each offset in force. -/
def instantsAt (zone : Zone) (t : LocalTime) : List Instant :=
  zone.offsets.filterMap fun offset =>
    match Instant.of? (t.second - offset) t.nano with
    | some i => if zone.offsetAt i = offset then some i else none
    | none => none

/-- The earlier of two instants. -/
def earlier (i j : Instant) : Instant := if j < i then j else i

/-- The first instant at which local clocks show `t`. -/
def firstInstantAt? (zone : Zone) (t : LocalTime) : Option Instant :=
  match zone.instantsAt t with
  | [] => none
  | i :: rest => some (rest.foldl earlier i)

end Zone

end Reveille
