import Reveille.Display
import Reveille.Proofs.Occurrence.DaySearch
import Reveille.Proofs.Text.Decimal

/-!
# What a shown time tells

The text of a local time is a row of numbers with marks between them, so there is one way to take it
apart, and on either dial it tells the date, the hour and the minute, and nothing more
(`Dial.textOf_eq_iff`). These tell the minute of local time, counted from 1970
(`LocalTime.sameMinute_iff`). So both dials tell the same triggers apart, and neither shows a time
as it shows a missing trigger (`Dial.tells_minute`). The occurrences found in a zone ring on the
full minute, at the first of its instants, so no two of them are shown alike
(`Alarm.shown_alike_iff`).
-/

namespace Reveille

open Text

/-! ## Minutes of local time -/

namespace LocalTime

variable {t t' : LocalTime}

/-- Two clocks show the same date, hour and minute. -/
structure SameMinute (t t' : LocalTime) : Prop where
  year : t.date.year = t'.date.year
  month : t.date.month = t'.date.month
  day : t.date.day = t'.date.day
  hour : t.hour = t'.hour
  minute : t.minute = t'.minute

theorem sameMinute_iff_date :
    t.SameMinute t' ↔ t.date = t'.date ∧ t.hour = t'.hour ∧ t.minute = t'.minute := by
  rw [Date.ext_iff]
  exact ⟨fun h => ⟨⟨h.year, h.month, h.day⟩, h.hour, h.minute⟩,
    fun ⟨⟨hyear, hmonth, hday⟩, hhour, hminute⟩ => ⟨hyear, hmonth, hday, hhour, hminute⟩⟩

theorem hour_lt (t : LocalTime) : t.hour < 24 := by
  unfold hour secondOfDay
  omega

/-- Date, hour and minute tell the minute of local time. -/
theorem sameMinute_iff : t.SameMinute t' ↔ t.second / 60 = t'.second / 60 := by
  have hdate : t.date = t'.date ↔ t.second / 86400 = t'.second / 86400 :=
    ⟨Date.ofDays_injective, congrArg Date.ofDays⟩
  rw [sameMinute_iff_date, hdate]
  unfold hour minute secondOfDay
  omega

end LocalTime

namespace Dial

variable {t t' : LocalTime} {c : Char} {rest rest' : List Char}

/-! ## The fields of a text -/

theorem dateText_append_inj (hc : isDigit c = false) :
    dateText t ++ c :: rest = dateText t' ++ c :: rest' ↔ t.date = t'.date ∧ rest = rest' := by
  have hhyphen : isDigit '-' = false := by decide
  unfold dateText
  simp only [List.append_assoc, List.cons_append]
  rw [paddedInt_append_inj hhyphen, padded_append_inj hhyphen, padded_append_inj hc, Date.ext_iff,
    and_assoc, and_assoc]

/-- With AM or PM the dial of twelve hours tells the hour. Each half of the day starts at 12. -/
theorem twelve_inj {hour hour' : Nat} (h : hour < 24) (h' : hour' < 24) :
    twelve hour = twelve hour' ∧ (hour < 12 ↔ hour' < 12) ↔ hour = hour' := by
  unfold twelve
  split <;> split <;> omega

theorem meridiem_inj {hour hour' : Nat} :
    (if hour < 12 then 'A' else 'P') = (if hour' < 12 then 'A' else 'P') ↔
      (hour < 12 ↔ hour' < 12) := by
  by_cases h : hour < 12 <;> by_cases h' : hour' < 12 <;> simp [h, h']

/-! ## Texts -/

/-- On either dial two times are shown alike if and only if they are in the same minute. -/
theorem textOf_eq_iff (dial : Dial) : dial.textOf t = dial.textOf t' ↔ t.SameMinute t' := by
  have hblank : isDigit ' ' = false := by decide
  have hcolon : isDigit ':' = false := by decide
  unfold textOf
  rw [String.ofList_inj, LocalTime.sameMinute_iff_date]
  cases dial with
  | hours24 =>
    simp only [List.append_assoc, List.cons_append]
    rw [dateText_append_inj hblank, padded_append_inj hcolon, padded_inj]
  | hours12 =>
    simp only [List.append_assoc, List.cons_append]
    rw [dateText_append_inj hblank, digits_append_inj hcolon, padded_append_inj hblank,
      List.cons.injEq, and_iff_left rfl, meridiem_inj, ← twelve_inj t.hour_lt t'.hour_lt]
    exact ⟨fun ⟨hdate, htwelve, hminute, hnoon⟩ => ⟨hdate, ⟨htwelve, hnoon⟩, hminute⟩,
      fun ⟨hdate, ⟨htwelve, hnoon⟩, hminute⟩ => ⟨hdate, htwelve, hminute, hnoon⟩⟩

theorem textOf_ne_hyphen (dial : Dial) (t : LocalTime) : dial.textOf t ≠ "-" := by
  have hblank : ' ' ∈ (dial.textOf t).toList := by
    unfold textOf
    rw [String.toList_ofList]
    cases dial <;> simp
  intro h
  rw [h] at hblank
  exact absurd hblank (by decide)

/-- In whatever zones, two instants are shown alike on the dial of twelve hours if and only if they
are on the dial of 24 hours, and if and only if the local clocks show the same year, month, day,
hour and minute. Each instant is shown otherwise than a missing trigger. -/
theorem tells_minute (zone zone' : Zone) (i i' : Instant) :
    (hours12.show? zone (some i) = hours12.show? zone' (some i') ↔
      hours24.show? zone (some i) = hours24.show? zone' (some i')) ∧
    (hours12.show? zone (some i) = hours12.show? zone' (some i') ↔
      (zone.localTime i).SameMinute (zone'.localTime i')) ∧
    ∀ dial : Dial, dial.show? zone none = "-" ∧ dial.show? zone (some i) ≠ "-" := by
  have hshown : ∀ dial : Dial, dial.show? zone (some i) = dial.show? zone' (some i') ↔
      (zone.localTime i).SameMinute (zone'.localTime i') := fun dial => dial.textOf_eq_iff
  exact ⟨(hshown hours12).trans (hshown hours24).symm, hshown hours12,
    fun dial => ⟨rfl, dial.textOf_ne_hyphen _⟩⟩

example : hours12.textOf ⟨-63549359700, 0⟩ = "-044-03-15 12:05 AM" := by decide +kernel

end Dial

/-! ## Occurrences -/

/-- Two occurrences found in one zone, of whatever alarms and from whatever anchors, are shown alike
if and only if they are the same instant. -/
theorem Alarm.shown_alike_iff {alarm alarm' : Alarm} {zone : Zone} {anchor anchor' i i' : Instant}
    (h : alarm.nextAfter zone anchor = .ok i) (h' : alarm'.nextAfter zone anchor' = .ok i')
    (dial : Dial) : dial.show? zone (some i) = dial.show? zone (some i') ↔ i = i' := by
  refine ⟨fun hshown => ?_, fun heq => heq ▸ rfl⟩
  obtain ⟨k, hk⟩ := (nextAfter_eq_ok_iff (inRange_of_nextAfter h)).mp h
  obtain ⟨k', hk'⟩ := (nextAfter_eq_ok_iff (inRange_of_nextAfter h')).mp h'
  have hminute := LocalTime.sameMinute_iff.mp (dial.textOf_eq_iff.mp hshown)
  -- Both are full minutes, so clocks show the same time at both and each is the first to show it.
  have hlocal : zone.localTime i = zone.localTime i' := by
    rw [hk.shows, hk'.shows] at hminute ⊢
    unfold LocalTime.atMinute at hminute ⊢
    dsimp only at hminute
    congr 1
    omega
  exact Instant.eq_of_not_lt (hk'.first i hlocal) (hk.first i' hlocal.symm)

end Reveille
