import Reveille.Instant
import Reveille.Number.Shortest

/-!
# Settings

How often the alarm is looked at and how long things last, in milliseconds, as words of 64
bits. The waiting times of the program, poll interval and write timeout, are at least one
millisecond. The spans that are compared with other spans, tolerance, lookback and
acknowledgment window, are at most `2 ^ 63 - 1` milliseconds.

The lookback has to cover the tolerance (`Settings.WindowFits`) : the search for the next
occurrence starts that long before the present.
-/

namespace Reveille

open Text

structure Settings where
  /-- Between two looks at the alarm. -/
  pollMs : UInt64
  /-- How far from its instant an occurrence may still ring. -/
  toleranceMs : UInt64
  /-- How long before the present the search for an occurrence starts. -/
  lookbackMs : UInt64
  /-- How long a wake-up stays active without its sound. -/
  ackWindowMs : UInt64
  /-- After which a call of a store is given up. -/
  writeTimeoutMs : UInt64
  /-- The volume at which the alarm sounds. -/
  volume : Binary Format.binary32
  deriving DecidableEq

namespace Settings

/-- The full volume. -/
def fullVolume : Binary Format.binary32 := Binary.ofInt Format.binary32 1

def defaults : Settings where
  pollMs := 5000
  toleranceMs := 30000
  lookbackMs := 60000
  ackWindowMs := 1800000
  writeTimeoutMs := 2000
  volume := fullVolume

instance : Inhabited Settings := ⟨defaults⟩

/-! ## Lengths of time -/

/-- Milliseconds between two looks at the alarm. -/
def pollInterval (s : Settings) : Nat := max 1 s.pollMs.toNat

/-- Milliseconds after which a call is given up. -/
def writeTimeout (s : Settings) : Nat := max 1 s.writeTimeoutMs.toNat

/-- The longest span in milliseconds. -/
def spanLimit : Nat := 9223372036854775807

/-- The milliseconds of a span. -/
def clamp (ms : UInt64) : Nat := min ms.toNat spanLimit

def tolerance (s : Settings) : Span := .ofMillis (clamp s.toleranceMs)

def lookback (s : Settings) : Span := .ofMillis (clamp s.lookbackMs)

def ackWindow (s : Settings) : Span := .ofMillis (clamp s.ackWindowMs)

/-- The lookback covers the tolerance. -/
def WindowFits (s : Settings) : Prop := s.toleranceMs ≤ s.lookbackMs

instance (s : Settings) : Decidable s.WindowFits :=
  inferInstanceAs (Decidable (s.toleranceMs ≤ s.lookbackMs))

/-- What is said of settings whose lookback does not cover the tolerance. -/
def windowMessage (tolerance lookback : UInt64) : String :=
  "tolerance_ms (" ++ String.ofList (digits tolerance.toNat)
    ++ ") must not exceed lookback_ms (" ++ String.ofList (digits lookback.toNat) ++ ")"

end Settings

/-! ## Wording -/

/-- The text without zeros at its end. -/
def withoutTrailingZeros (cs : List Char) : List Char :=
  (cs.reverse.dropWhile (· = '0')).reverse

/-- A length of time in seconds with the decimals it needs, below one second in
milliseconds. -/
def durationText (ms : Nat) : String :=
  String.ofList <|
    if ms < 1000 then digits ms ++ ['m', 's']
    else if ms % 1000 = 0 then digits (ms / 1000) ++ ['s']
    else digits (ms / 1000) ++ '.' :: withoutTrailingZeros (padded 3 (ms % 1000)) ++ ['s']

end Reveille
