import Reveille.Proofs.Occurrence.DaySearch

/-!
# An alarm rings daily

In a zone with one offset the occurrences of an alarm are the full seconds of one remainder by the
day (`Alarm.ringsAt_fixed_iff`), so from one to the next it is a day. The search compares hours and
minutes and counts whole days, but what it finds is the first instant after the anchor at which
local clocks show the alarm's time : at most a day ahead, never earlier for a later anchor, and from
an occurrence on exactly a day ahead (`Alarm.finds_next_occurrence`).
-/

namespace Reveille

/-! ## Offsets and the supported range -/

/-- An offset is less than a day, either way. -/
def Zone.IsOffset (offset : Int) : Prop := -86400 < offset ∧ offset < 86400

/-- So many days before the instant and after it lie in the supported range. -/
def Instant.DaysInside (i : Instant) (days : Int) : Prop :=
  firstSecond + days * 86400 ≤ i.second ∧ i.second + days * 86400 ≤ lastSecond

/-- A day inside the range, local clocks are in range too. -/
theorem Zone.inRange_of_daysInside {offset : Int} {i : Instant} (hoffset : IsOffset offset)
    (h : i.DaysInside 1) : ((fixed offset).localTime i).InRange := by
  obtain ⟨hwest, heast⟩ := hoffset
  obtain ⟨hlower, hupper⟩ := h
  unfold LocalTime.InRange localTime
  rw [offsetAt_fixed]
  dsimp only
  omega

namespace Alarm

variable {alarm : Alarm} {zone : Zone} {anchor anchor' i j : Instant} {offset : Int}

/-! ## The order of anchors -/

/-- The first occurrence after a later anchor is no earlier. -/
theorem IsNext.mono (hi : alarm.IsNext zone anchor i) (hj : alarm.IsNext zone anchor' j)
    (h : anchor ≤ anchor') : i ≤ j :=
  hi.first j hj.ringsAt (Instant.lt_of_le_of_lt h hj.after)

/-! ## From one occurrence to the next -/

/-- With one offset the alarm's time is shown at the seconds of one remainder by the day. -/
theorem ringsAt_fixed_iff : alarm.RingsAt (.fixed offset) i ↔
    i.nano = 0 ∧
      (i.second + offset) % 86400 = (alarm.hour : Int) * 3600 + (alarm.minute : Int) * 60 := by
  have hh := alarm.hour.isLt
  have hm := alarm.minute.isLt
  rw [ringsAt_iff]
  simp only [Zone.localTime, Zone.offsetAt_fixed, LocalTime.atMinute, LocalTime.mk.injEq]
  constructor
  · rintro ⟨day, hsecond, hnano⟩
    exact ⟨hnano, by omega⟩
  · rintro ⟨hnano, hsecond⟩
    exact ⟨(i.second + offset) / 86400, by omega, hnano⟩

/-- Two days inside the range an occurrence is found, a day ahead at most. -/
theorem exists_nextAfter_fixed (alarm : Alarm) (hoffset : Zone.IsOffset offset)
    (h : anchor.DaysInside 2) : ∃ i, alarm.nextAfter (.fixed offset) anchor = .ok i ∧
      alarm.RingsAt (.fixed offset) i ∧ anchor.second < i.second ∧
        i.second ≤ anchor.second + 86400 := by
  obtain ⟨hlower, hupper⟩ := h
  have hhere : ((Zone.fixed offset).localTime anchor).InRange :=
    Zone.inRange_of_daysInside hoffset ⟨by omega, by omega⟩
  have heast := hoffset.2
  exact alarm.nextAfter_fixed_second hhere (by omega) (by omega)

/-- From an occurrence the next one is found a day later. -/
theorem RingsAt.nextAfter_eq (h : alarm.RingsAt (.fixed offset) i)
    (hoffset : Zone.IsOffset offset) (hinside : i.DaysInside 2) :
    ∃ j, i.shift? Span.day = some j ∧ alarm.nextAfter (.fixed offset) i = .ok j := by
  obtain ⟨j, hj, hrings, hafter, hbefore⟩ := alarm.exists_nextAfter_fixed hoffset hinside
  refine ⟨j, (Instant.shift?_eq_some_iff h.not_isLeap).mpr ⟨hrings.not_isLeap, ?_⟩, hj⟩
  -- The two are of one remainder by the day, and no more than a day apart.
  obtain ⟨hi0, hi⟩ := ringsAt_fixed_iff.mp h
  obtain ⟨hj0, hj'⟩ := ringsAt_fixed_iff.mp hrings
  unfold Instant.unixNanos secondNanos Span.day Span.ofSeconds
  omega

/-! ## The specification -/

/-- In a zone with one offset, from an anchor three days or more inside the supported range, the
search succeeds. It finds the first instant after the anchor at which local clocks show the alarm's
hour and minute and nothing beyond, at most a day ahead. From what is found it finds the instant a
day later, and from a later anchor no earlier instant. -/
theorem finds_next_occurrence (alarm : Alarm) (hoffset : Zone.IsOffset offset)
    (hinside : anchor.DaysInside 3) :
    ∃ i, alarm.nextAfter (.fixed offset) anchor = .ok i ∧
      alarm.IsNext (.fixed offset) anchor i ∧
      i.unixNanos ≤ anchor.unixNanos + Span.day ∧
      (∃ later, i.shift? Span.day = some later ∧ alarm.nextAfter (.fixed offset) i = .ok later) ∧
      ∀ anchor' j, anchor ≤ anchor' → alarm.nextAfter (.fixed offset) anchor' = .ok j → i ≤ j := by
  obtain ⟨hlower, hupper⟩ := hinside
  have hroom : anchor.DaysInside 2 := ⟨by omega, by omega⟩
  obtain ⟨i, hi, hrings, hafter, hbefore⟩ := alarm.exists_nextAfter_fixed hoffset hroom
  have hnext := isNext_of_nextAfter hi
  have hlater := hrings.nextAfter_eq hoffset ⟨by omega, by omega⟩
  refine ⟨i, hi, hnext, ?_, hlater, fun anchor' j h hj => hnext.mono (isNext_of_nextAfter hj) h⟩
  have hnano := hrings.nano_eq_zero
  unfold Instant.unixNanos secondNanos Span.day Span.ofSeconds
  omega

/-- At +05:30 clocks show 23:59:30.5 on 28 February 2028. An alarm at 23:59 is found on the leap
day, and from there on 1 March. -/
theorem finds_leap_day :
    let zone : Zone := .fixed 19800
    let alarm : Alarm := ⟨23, 59⟩
    let anchor : Instant := ⟨1835375370, 500000000, by decide, by decide, by decide, by decide⟩
    let leapDay : Instant := ⟨1835461740, 0, by decide, by decide, by decide, by decide⟩
    let march : Instant := ⟨1835548140, 0, by decide, by decide, by decide, by decide⟩
    Zone.IsOffset 19800 ∧ anchor.DaysInside 3 ∧ alarm.nextAfter zone anchor = .ok leapDay ∧
      alarm.IsNext zone anchor leapDay ∧ alarm.nextAfter zone leapDay = .ok march ∧
      (zone.localTime leapDay).date = ⟨2028, 2, 29⟩ ∧
      (zone.localTime march).date = ⟨2028, 3, 1⟩ := by
  intro zone alarm anchor leapDay march
  have hoffset : Zone.IsOffset 19800 := ⟨by decide, by decide⟩
  have hinside : anchor.DaysInside 3 := ⟨by decide, by decide⟩
  obtain ⟨i, hi, hnext, -, ⟨later, hlater, hfound⟩, -⟩ :=
    alarm.finds_next_occurrence hoffset hinside
  have hleapDay : alarm.nextAfter zone anchor = .ok leapDay :=
    nextAfter_of_onDay? rfl (by decide) (by decide)
  obtain rfl : i = leapDay := Except.ok.inj (hi.symm.trans hleapDay)
  obtain rfl : later = march := Option.some.inj (hlater.symm.trans (by decide))
  exact ⟨hoffset, hinside, hi, hnext, hfound, by decide, by decide⟩

end Alarm

end Reveille
