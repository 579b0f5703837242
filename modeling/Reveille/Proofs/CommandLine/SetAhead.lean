import Reveille.CommandLine.Program
import Reveille.Proofs.Occurrence

/-!
# Alarms set some minutes ahead

An alarm that is set to ring in so many minutes is the hour and the minute that local clocks show
then, and no date. So whole days are lost : in a zone with one offset it rings in the minute that is
1 to 1440 minutes ahead and as many as were asked for up to whole days (`minutesAhead`), and none at
all counts as a day (`Arguments.rings_minutes_ahead`).
-/

namespace Reveille

/-- The local time without the seconds of its minute. -/
def LocalTime.wholeMinute (t : LocalTime) : LocalTime := ⟨t.second - t.second % 60, 0⟩

theorem LocalTime.wholeMinute_le (t : LocalTime) : t.wholeMinute.second ≤ t.second := by
  have := Int.emod_nonneg t.second (show (60 : Int) ≠ 0 by decide)
  exact Int.sub_le_self _ this

/-- How many minutes ahead an alarm rings that is set to ring in so many. -/
def minutesAhead (minutes : Nat) : Int := ((minutes : Int) - 1) % 1440 + 1

/-- Outside leap seconds a shift by minutes keeps the place in the minute. -/
theorem Instant.parts_of_shift?_ofMinutes {i j : Instant} {minutes : Int} (hi : ¬ i.IsLeap)
    (h : i.shift? (.ofMinutes minutes) = some j) :
    j.second = i.second + 60 * minutes ∧ j.nano = i.nano := by
  obtain ⟨hj, hscale⟩ := (Instant.shift?_eq_some_iff hi).mp h
  unfold Instant.IsLeap secondNanos at hi hj
  unfold Instant.unixNanos secondNanos Span.ofMinutes Span.ofSeconds at hscale
  omega

namespace Alarm

variable {offset : Int} {now picked ahead : Instant} {minutes : Nat}

/-- The alarm at the time that a clock shows is at its minute, on any day. -/
theorem atMinute_ofLocalTime (t : LocalTime) (day : Int) :
    LocalTime.atMinute day (ofLocalTime t).hour (ofLocalTime t).minute =
      ⟨day * 86400 + t.wholeMinute.second % 86400, 0⟩ := by
  unfold LocalTime.atMinute ofLocalTime LocalTime.hour LocalTime.minute LocalTime.secondOfDay
    LocalTime.wholeMinute
  dsimp only
  exact congrArg (LocalTime.mk · 0) (by omega)

/-- The first day looked at is that of the minute ahead. -/
theorem atMinute_firstDay_ofLocalTime {t p there : LocalTime}
    (hp : p.second = t.second + 60 * minutes)
    (hthere : there.second = t.second + 60 * minutesAhead minutes) :
    LocalTime.atMinute (t.dayCount + (ofLocalTime p).firstDay t) (ofLocalTime p).hour
      (ofLocalTime p).minute = there.wholeMinute := by
  obtain ⟨hafter, hbefore⟩ := (ofLocalTime p).atMinute_firstDay t
  rw [atMinute_ofLocalTime] at hafter hbefore ⊢
  -- Both are whole minutes of the day that follows the minute shown, and whole days apart.
  unfold LocalTime.wholeMinute minutesAhead at *
  dsimp only at *
  exact congrArg (LocalTime.mk · 0) (by omega)

/-- In a zone with one offset the full minute of the first day looked at is found, if it is no later
than some instant in range. -/
theorem nextAfter_fixed_of_le (alarm : Alarm) {t : LocalTime} {anchor later : Instant}
    (ht : (Zone.fixed offset).localTime anchor = t) (hhere : t.InRange)
    (hthere : ((Zone.fixed offset).localTime later).InRange)
    (hle : (LocalTime.atMinute (t.dayCount + alarm.firstDay t) alarm.hour alarm.minute).second ≤
      ((Zone.fixed offset).localTime later).second) :
    ∃ i, alarm.nextAfter (.fixed offset) anchor = .ok i ∧ (Zone.fixed offset).localTime i =
      .atMinute (t.dayCount + alarm.firstDay t) alarm.hour alarm.minute := by
  obtain ⟨hafter, -⟩ := alarm.atMinute_firstDay t
  have hanchor : t.second = anchor.second + offset := ht ▸ rfl
  have hlater : ((Zone.fixed offset).localTime later).second = later.second + offset := rfl
  have hfirst := anchor.first_le
  have hlast := later.le_last
  have hrange : (LocalTime.atMinute (t.dayCount + alarm.firstDay t) alarm.hour
      alarm.minute).InRange := by
    unfold LocalTime.InRange at *
    omega
  obtain ⟨i, hi, hsecond, hnano⟩ := alarm.onDay?_fixed (Int.sub_add_cancel _ offset).symm hrange
    (by omega) (by omega)
  refine ⟨i, nextAfter_of_onDay? ht hhere hi, ?_⟩
  unfold Zone.localTime
  rw [Zone.offsetAt_fixed, hsecond, hnano, Int.sub_add_cancel]
  rfl

/-- What is found for it is the start of the minute ahead, as long as that is in range. -/
theorem nextAfter_ofLocalTime (hleap : ¬ now.IsLeap)
    (hpicked : now.shift? (.ofMinutes minutes) = some picked)
    (hahead : now.shift? (.ofMinutes (minutesAhead minutes)) = some ahead)
    (hhere : ((Zone.fixed offset).localTime now).InRange)
    (hthere : ((Zone.fixed offset).localTime ahead).InRange) :
    ∃ i, (ofLocalTime ((Zone.fixed offset).localTime picked)).nextAfter (.fixed offset) now =
        .ok i ∧
      (Zone.fixed offset).localTime i = ((Zone.fixed offset).localTime ahead).wholeMinute := by
  obtain ⟨hpicked, -⟩ := Instant.parts_of_shift?_ofMinutes hleap hpicked
  obtain ⟨hahead, -⟩ := Instant.parts_of_shift?_ofMinutes hleap hahead
  generalize ht : (Zone.fixed offset).localTime now = t at hhere
  generalize hp : (Zone.fixed offset).localTime picked = p
  have hnow : t.second = now.second + offset := ht ▸ rfl
  have hplace : p.second = t.second + 60 * minutes := by
    rw [← hp, hnow]
    show picked.second + offset = _
    omega
  have hthere' : ((Zone.fixed offset).localTime ahead).second =
      t.second + 60 * minutesAhead minutes := by
    show ahead.second + offset = _
    omega
  have hminute := atMinute_firstDay_ofLocalTime hplace hthere'
  obtain ⟨i, hi, hlocal⟩ := (ofLocalTime p).nextAfter_fixed_of_le ht hhere hthere
    (by rw [hminute]; exact LocalTime.wholeMinute_le _)
  exact ⟨i, hi, hlocal.trans hminute⟩

end Alarm

namespace Arguments

variable {a : Arguments} {offset : Int} {now picked ahead : Instant} {minutes : Nat}

/-- In a zone with one offset, and outside leap seconds, the alarm that is set to ring in so many
minutes rings at the start of the local minute that is 1 to 1440 minutes ahead and differs from what
was asked for by whole days. That is the minute asked for if it is no more than a day ahead, and the
minute of the next day if it is the present one. -/
theorem rings_minutes_ahead (halarm : a.setAlarm = none) (hminutes : a.setAlarmIn = some minutes)
    (hleap : ¬ now.IsLeap) (hpicked : now.shift? (.ofMinutes minutes) = some picked)
    (hahead : now.shift? (.ofMinutes (minutesAhead minutes)) = some ahead)
    (hhere : ((Zone.fixed offset).localTime now).InRange)
    (hthere : ((Zone.fixed offset).localTime ahead).InRange) :
    ∃ alarm i, a.picked (.fixed offset) now = .ok (some alarm) ∧
      alarm.nextAfter (.fixed offset) now = .ok i ∧
      (Zone.fixed offset).localTime i = ((Zone.fixed offset).localTime ahead).wholeMinute ∧
      (1 ≤ minutes → minutes ≤ 1440 → ahead = picked) ∧
      (minutes = 0 → now.shift? Span.day = some ahead) := by
  obtain ⟨i, hi, hlocal⟩ := Alarm.nextAfter_ofLocalTime hleap hpicked hahead hhere hthere
  refine ⟨_, i, ?_, hi, hlocal, fun hsome hday => ?_, fun hnone => ?_⟩
  · unfold Arguments.picked
    rw [halarm, hminutes]
    dsimp only
    rw [hpicked]
  · have : minutesAhead minutes = minutes := by
      unfold minutesAhead
      omega
    rw [this, hpicked] at hahead
    exact (Option.some.inj hahead).symm
  · rw [hnone] at hahead
    exact hahead

/-- At +05:30 clocks show 23:59:30.5 on 28 February 2028. An alarm that is set to ring in a day and
a minute rings half a minute later, at the start of the leap day. -/
theorem rings_minutes_ahead_midnight :
    let zone : Zone := .fixed 19800
    let now : Instant := ⟨1835375370, 500000000, by decide, by decide, by decide, by decide⟩
    let leapDay : Instant := ⟨1835375400, 0, by decide, by decide, by decide, by decide⟩
    let a : Arguments := ⟨"wakey.json", "uid-a", "wakeups.json", none, none, none, none, some 1441,
      false, false, false⟩
    ¬ now.IsLeap ∧ (zone.localTime now).InRange ∧ (zone.localTime leapDay).date = ⟨2028, 2, 29⟩ ∧
      ∃ alarm, a.picked zone now = .ok (some alarm) ∧ alarm.nextAfter zone now = .ok leapDay := by
  intro zone now leapDay a
  let picked : Instant := ⟨1835461830, 500000000, by decide, by decide, by decide, by decide⟩
  let ahead : Instant := ⟨1835375430, 500000000, by decide, by decide, by decide, by decide⟩
  have hpicked : now.shift? (.ofMinutes 1441) = some picked := by decide
  have hahead : now.shift? (.ofMinutes (minutesAhead 1441)) = some ahead := by decide
  obtain ⟨alarm, i, halarm, hi, hlocal, -, -⟩ := rings_minutes_ahead (a := a) rfl rfl (by decide)
    hpicked hahead (show (zone.localTime now).InRange by decide) (by decide)
  have hsecond : i.second + 19800 = leapDay.second + 19800 := congrArg LocalTime.second hlocal
  have hnano : i.nano = leapDay.nano := congrArg LocalTime.nano hlocal
  obtain rfl : i = leapDay := Instant.ext_parts (by omega) hnano
  exact ⟨by decide, by decide, by decide, alarm, halarm, hi⟩

end Arguments

end Reveille
