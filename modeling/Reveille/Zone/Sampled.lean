import Reveille.Zone

/-!
# Sampled zones

A zone made from samples of an offset that is known second by second : the days of a span
are looked at one after the other, and where the offset has changed in the meantime the
second of the change is found by halving. At most one change a day is found.
-/

namespace Reveille.Zone

/-- The first second of a change within `(low, high]`, by so many halvings. -/
def changeWithin (offsetAt : Int → Int) : Nat → Int → Int → Int
  | 0, _, high => high
  | n + 1, low, high =>
    let middle := (low + high) / 2
    if offsetAt middle = offsetAt low then changeWithin offsetAt n middle high
    else changeWithin offsetAt n low middle

/-- Halvings of a day down to a second. -/
def halvings : Nat := 17

/-- The change within the day from a second on, if there is one. -/
def changeOfDay? (offsetAt : Int → Int) (second : Int) : Option (Instant × Int) :=
  let next := second + 86400
  if offsetAt next = offsetAt second then none
  else
    let change := changeWithin offsetAt halvings second next
    (Instant.of? change 0).map fun i => (i, offsetAt next)

/-- The zone with the offsets of so many days from a second on. -/
def sampled (offsetAt : Int → Int) (second : Int) (days : Nat) : Zone :=
  .table (offsetAt second)
    ((List.range days).filterMap fun (day : Nat) => changeOfDay? offsetAt (second + (day : Int) * 86400))

end Reveille.Zone
