/-!
# Instants and spans

An `Instant` is a Unix second with a fraction in nanoseconds. A leap second is the second
before it, prolonged : its fraction is a full second or more, and it ends a minute. So
23:59:60.25 is held as the second 23:59:59 with 1.25 s, its clock reads 23:59, and on the
Unix scale (`unixNanos`) it coincides with a time of the next second without being equal to
it.

Instants are ordered by second, then fraction, which puts a leap second before the
midnight that follows it. `since` measures the span between two instants and counts a
leap second that lies between their times of day; `shift?` moves an instant by a span and
has no answer outside the supported range, the years -262143 to 262142.
-/

namespace Reveille

/-! ## Spans -/

/-- A length of time in nanoseconds, negative when it points backwards. -/
abbrev Span := Int

namespace Span

def ofMillis (ms : Int) : Span := ms * 1000000

def ofSeconds (s : Int) : Span := s * 1000000000

def ofMinutes (m : Int) : Span := ofSeconds (m * 60)

/-- Twenty-four hours. -/
def day : Span := ofSeconds 86400

/-- The length without its direction. -/
def abs (span : Span) : Span := if span < 0 then -span else span

end Span

/-! ## Instants -/

/-- Nanoseconds of a second. -/
def secondNanos : Nat := 1000000000

namespace Instant

/-- The first second of the year -262143. -/
def firstSecond : Int := -8334601228800

/-- The last second of the year 262142. -/
def lastSecond : Int := 8210266876799

end Instant

/-- A moment of the supported range. -/
structure Instant where
  /-- Seconds since 1970-01-01T00:00:00Z. -/
  second : Int
  /-- Nanoseconds into the second; from a full second on, into the leap second after it. -/
  nano : Nat
  first_le : Instant.firstSecond ≤ second
  le_last : second ≤ Instant.lastSecond
  nano_lt : nano < 2 * secondNanos
  /-- A leap second ends a minute. -/
  leap_last : nano < secondNanos ∨ second % 60 = 59
  deriving DecidableEq

namespace Instant

/-- The instant with these parts, if there is one. -/
def of? (second : Int) (nano : Nat) : Option Instant :=
  if h : firstSecond ≤ second ∧ second ≤ lastSecond ∧ nano < 2 * secondNanos ∧
      (nano < secondNanos ∨ second % 60 = 59) then
    some ⟨second, nano, h.1, h.2.1, h.2.2.1, h.2.2.2⟩
  else none

/-- 1970-01-01T00:00:00Z. -/
def epoch : Instant := ⟨0, 0, by decide, by decide, by decide, by decide⟩

instance : Inhabited Instant := ⟨epoch⟩

instance : LT Instant :=
  ⟨fun a b => a.second < b.second ∨ (a.second = b.second ∧ a.nano < b.nano)⟩

instance : LE Instant := ⟨fun a b => ¬ b < a⟩

instance (a b : Instant) : Decidable (a < b) :=
  inferInstanceAs (Decidable (a.second < b.second ∨ (a.second = b.second ∧ a.nano < b.nano)))

instance (a b : Instant) : Decidable (a ≤ b) := inferInstanceAs (Decidable (¬ b < a))

/-! ## The order -/

section Order

variable {a b c : Instant}

theorem lt_iff :
    a < b ↔ a.second < b.second ∨ (a.second = b.second ∧ a.nano < b.nano) := Iff.rfl

theorem lt_irrefl (a : Instant) : ¬ a < a := by
  rw [lt_iff]
  omega

theorem lt_trans (h : a < b) (h' : b < c) : a < c := by
  rw [lt_iff] at *
  omega

theorem eq_of_not_lt (h : ¬ a < b) (h' : ¬ b < a) : a = b := by
  rw [lt_iff] at h h'
  have hs : a.second = b.second := by omega
  have hn : a.nano = b.nano := by omega
  cases a
  cases b
  simp_all

theorem le_refl (a : Instant) : a ≤ a := lt_irrefl a

theorem le_trans (h : a ≤ b) (h' : b ≤ c) : a ≤ c := by
  change ¬ b < a at h
  change ¬ c < b at h'
  change ¬ c < a
  rw [lt_iff] at *
  omega

theorem lt_of_lt_of_le (h : a < b) (h' : b ≤ c) : a < c := by
  change ¬ c < b at h'
  rw [lt_iff] at *
  omega

theorem lt_of_le_of_lt (h : a ≤ b) (h' : b < c) : a < c := by
  change ¬ b < a at h
  rw [lt_iff] at *
  omega

end Order

/-! ## Times and spans -/

/-- The instant lies in a leap second. -/
def IsLeap (i : Instant) : Prop := secondNanos ≤ i.nano

instance (i : Instant) : Decidable i.IsLeap := inferInstanceAs (Decidable (secondNanos ≤ i.nano))

/-- Nanoseconds since 1970 on the Unix scale. -/
def unixNanos (i : Instant) : Int := i.second * secondNanos + i.nano

/-- Milliseconds since 1970 on the Unix scale, rounded down. -/
def unixMillis (i : Instant) : Int := i.second * 1000 + ((i.nano / 1000000 : Nat) : Int)

/-- The instant, outside leap seconds, with this time on the Unix scale. -/
def ofUnixNanos? (n : Int) : Option Instant :=
  of? (n / secondNanos) (n % secondNanos).toNat

/-- Seconds since midnight. -/
def secondOfDay (i : Instant) : Int := i.second % 86400

/-- The span from `b` to `a`. A leap second counts when the times of day of the two
instants lie on either side of it. -/
def since (a b : Instant) : Span :=
  let plain := a.unixNanos - b.unixNanos
  if b.secondOfDay < a.secondOfDay ∧ b.IsLeap then plain + secondNanos
  else if a.secondOfDay < b.secondOfDay ∧ a.IsLeap then plain - secondNanos
  else plain

/-- The instant a span away. Within a leap second less than a second moves along it;
leaving it forwards, the leap second counts; leaving it backwards, time runs on the Unix
scale. -/
def shift? (i : Instant) (span : Span) : Option Instant :=
  if i.IsLeap then
    if span.natAbs < secondNanos ∧ i.nano + span < 2 * secondNanos then
      of? i.second (i.nano + span).toNat
    else if span < 0 then ofUnixNanos? (i.unixNanos + span)
    else ofUnixNanos? (i.unixNanos - secondNanos + span)
  else ofUnixNanos? (i.unixNanos + span)

end Instant

end Reveille
