import Reveille.Number.Power
import Reveille.Text.Blank
import Reveille.Text.Decimal
import Reveille.Zone

/-!
# Instants as text

`Instant.rfc3339` writes an instant in the RFC 3339 form, in UTC : years 0 to 9999 with
four digits and other years behind their sign, a leap second as second 60, and a fraction
of 3, 6 or 9 digits, the fewest that are exact, only where it is not zero.

`Instant.parse` reads that form and more : blanks before each field and before the colons
and hyphens, fields of one digit, a space or a small t between date and time, any number
of fraction digits (those past the ninth are dropped), and an offset as Z, UTC, `+hh:mm` or
`+hhmm`. Each part is read by a scanner, which takes it off the front of the text.
-/

namespace Reveille

open Text

/-! ## Writing -/

/-- The year of a date text. -/
def yearText (year : Int) : List Char :=
  if 0 ≤ year ∧ year ≤ 9999 then padded 4 year.toNat
  else (if year < 0 then '-' else '+') :: padded 4 year.natAbs

/-- A fraction of a second, from its nanoseconds. -/
def fractionText (nanos : Nat) : List Char :=
  if nanos = 0 then []
  else if nanos % 1000000 = 0 then '.' :: padded 3 (nanos / 1000000)
  else if nanos % 1000 = 0 then '.' :: padded 6 (nanos / 1000)
  else '.' :: padded 9 nanos

def Date.text (d : Date) : List Char :=
  yearText d.year ++ '-' :: padded 2 d.month ++ '-' :: padded 2 d.day

namespace LocalTime

/-- The time of day. -/
def clockText (t : LocalTime) : List Char :=
  padded 2 t.hour ++ ':' :: padded 2 t.minute ++ ':' :: padded 2 t.secondOfMinute
    ++ fractionText t.fraction

/-- Date and time of day. -/
def text (t : LocalTime) : String := String.ofList (t.date.text ++ ' ' :: t.clockText)

end LocalTime

namespace Instant

/-- The clock of UTC. -/
def utc (i : Instant) : LocalTime := ⟨i.second, i.nano⟩

def rfc3339 (i : Instant) : List Char :=
  i.utc.date.text ++ 'T' :: i.utc.clockText ++ ['Z']

/-- The form used in messages. -/
def text (i : Instant) : String := i.utc.text ++ " UTC"

end Instant

/-! ## Reading -/

/-- Why a text is not an instant. -/
inductive InstantFault where
  | tooShort
  | badCharacter
  | outOfRange
  | trailing
  /-- The offset takes the time out of the supported range. -/
  | impossible
  deriving DecidableEq, Repr

def InstantFault.message : InstantFault → String
  | .tooShort => "premature end of input"
  | .badCharacter => "input contains invalid characters"
  | .outOfRange => "input is out of range"
  | .trailing => "trailing input"
  | .impossible => "no possible date and time matching input"

/-- Takes something off the front of a text. -/
abbrev Scan (α : Type) := List Char → Except InstantFault (α × List Char)

namespace Scan

/-- A number of one digit or more, at most `width`. -/
def number (width : Nat) : Scan Nat
  | [] => .error .tooShort
  | c :: cs =>
    if isDigit c then
      let ds := ((c :: cs).take width).takeWhile isDigit
      match readDigitsUpTo (tenPow width) 0 ds with
      | .ok n => .ok (n, (c :: cs).drop ds.length)
      | .error _ => .error .outOfRange
    else .error .badCharacter

/-- A number of at most two digits between bounds, after blanks. -/
def field (least most : Nat) : Scan Nat := fun cs => do
  let (n, rest) ← number 2 (trimStart cs)
  if least ≤ n ∧ n ≤ most then .ok (n, rest) else .error .outOfRange

/-- The limits of a signed year that is read before the calendar is asked. -/
def yearLimit (negative : Bool) : Nat := if negative then 2147483648 else 2147483647

/-- The digits of a signed year. -/
def signedYear (negative : Bool) : Scan Int
  | [] => .error .tooShort
  | c :: cs =>
    if isDigit c then
      let ds := (c :: cs).takeWhile isDigit
      match readDigitsUpTo (yearLimit negative) 0 ds with
      | .ok n => .ok (if negative then -(n : Int) else n, (c :: cs).drop ds.length)
      | .error _ => .error .outOfRange
    else .error .badCharacter

/-- A year : up to four digits, or a sign and any number of them. -/
def year : Scan Int := fun cs =>
  match trimStart cs with
  | '-' :: rest => signedYear true rest
  | '+' :: rest => signedYear false rest
  | rest => do
    let (n, rest) ← number 4 rest
    .ok ((n : Int), rest)

/-- One given character, after blanks. -/
def mark (c : Char) : Scan Unit := fun cs =>
  match trimStart cs with
  | [] => .error .tooShort
  | d :: rest => if d = c then .ok ((), rest) else .error .badCharacter

/-- The separator of date and time. -/
def separator : Scan Unit
  | [] => .error .tooShort
  | c :: rest => if c = 'T' ∨ c = 't' ∨ c = ' ' then .ok ((), rest) else .error .badCharacter

/-- A fraction of a second in nanoseconds, zero where there is no point. -/
def fraction : Scan Nat
  | '.' :: cs => do
    let (n, rest) ← number 9 cs
    let width := cs.length - rest.length
    .ok (n * tenPow (9 - width), rest.dropWhile isDigit)
  | cs => .ok (0, cs)

/-- Two digits. One byte is too short for them, one character of two bytes or more is not. -/
def twoDigits : Scan Nat
  | a :: b :: rest =>
    match digitValue? a, digitValue? b with
    | some x, some y => .ok (x * 10 + y, rest)
    | _, _ => .error .badCharacter
  | [c] => .error (if c.utf8Size = 1 then .tooShort else .badCharacter)
  | [] => .error .tooShort

/-- Hours and minutes of an offset, behind its sign. -/
def hoursMinutes : Scan Int := fun cs => do
  let (hours, rest) ← twoDigits cs
  let (minutes, rest) ← twoDigits (rest.dropWhile fun c => c = ':' || isBlank c)
  if 59 < minutes then .error .outOfRange
  else .ok ((hours : Int) * 3600 + (minutes : Int) * 60, rest)

/-- An offset from UTC in seconds, after blanks. -/
def offset : Scan Int := fun cs =>
  match trimStart cs with
  | [] => .error .tooShort
  | c :: rest =>
    if (c :: rest).take 3 |>.map Char.toUpper |> (· == ['U', 'T', 'C']) then .ok (0, rest.drop 2)
    else if c = 'Z' ∨ c = 'z' then .ok (0, rest)
    else if c = '+' then hoursMinutes rest
    else if c = '-' ∨ c = '\u2212' then do
      let (seconds, rest) ← hoursMinutes rest
      .ok (-seconds, rest)
    else .error .badCharacter

end Scan

/-- The instant of a date, a time of day and an offset. -/
def Instant.assemble (date : Date) (hour minute second nanos : Nat) (offset : Int) :
    Except InstantFault Instant :=
  let day := date.toDays
  if ¬ date.IsValid ∨ ¬ (LocalTime.atMinute day 0 0).InRange ∨ 86400 ≤ offset.natAbs then
    .error .outOfRange
  else
    let leap := second = 60
    let clock := (LocalTime.atMinute day hour minute).second + (if leap then 59 else second : Nat)
    match Instant.of? (clock - offset) (if leap then nanos + secondNanos else nanos) with
    | some i => .ok i
    | none => .error .impossible

/-- The instant that a text denotes. -/
def Instant.parse (cs : List Char) : Except InstantFault Instant := do
  let (year, cs) ← Scan.year cs
  let (_, cs) ← Scan.mark '-' cs
  let (month, cs) ← Scan.field 1 12 cs
  let (_, cs) ← Scan.mark '-' cs
  let (day, cs) ← Scan.field 1 31 cs
  let (_, cs) ← Scan.separator cs
  let (hour, cs) ← Scan.field 0 23 cs
  let (_, cs) ← Scan.mark ':' cs
  let (minute, cs) ← Scan.field 0 59 cs
  let (_, cs) ← Scan.mark ':' cs
  let (second, cs) ← Scan.field 0 60 cs
  let (nanos, cs) ← Scan.fraction cs
  let (offset, cs) ← Scan.offset cs
  if trimStart cs = [] then Instant.assemble ⟨year, month, day⟩ hour minute second nanos offset
  else .error .trailing

end Reveille
