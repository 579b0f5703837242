import Reveille.Occurrence
import Reveille.Proofs.UnixScale

/-!
# Occurrences of an alarm

An alarm rings at the instants at which local clocks show its hour and minute, and no second
more (`Alarm.RingsAt`). Whatever `Alarm.nextAfter` finds, in any zone, is such an instant
(`ringsAt_of_nextAfter`), so it is a full second.

In a zone with one offset the occurrences of an alarm lie a day apart : there is at most one
in every span of a day that is open at its start (`RingsAt.eq_of_within_day`). The one in the
day after an anchor is what `nextAfter` finds (`nextAfter_fixed`), as long as that day is in
the supported range.
-/

namespace Reveille

/-! ## Local clocks -/

namespace Zone

variable {zone : Zone} {t : LocalTime} {i : Instant}

theorem offsetAt_mem_offsets (zone : Zone) (i : Instant) : zone.offsetAt i ∈ zone.offsets := by
  cases zone with
  | table base transitions =>
    have h : ∀ (ts : List (Instant × Int)) (offset : Int),
        ts.foldl (fun offset t => if t.1 ≤ i then t.2 else offset) offset ∈
          offset :: ts.map Prod.snd := by
      intro ts
      induction ts with
      | nil => simp
      | cons t ts ih =>
        intro offset
        rw [List.foldl_cons]
        rcases List.mem_cons.mp (ih (if t.1 ≤ i then t.2 else offset)) with h | h
        · rw [h]
          split <;> simp
        · exact List.mem_cons_of_mem _ (List.mem_cons_of_mem _ h)
    exact h transitions base
  | yearly rule =>
    by_cases h : rule.isDaylight i <;> simp [offsetAt, offsets, h]

/-- The instants found for a local time are those at which clocks show it. -/
theorem mem_instantsAt_iff : i ∈ zone.instantsAt t ↔ zone.localTime i = t := by
  unfold instantsAt localTime
  rw [List.mem_filterMap]
  constructor
  · rintro ⟨offset, -, h⟩
    split at h
    · next j hj =>
      split at h
      · next hoff =>
        cases h
        obtain ⟨hs, hn⟩ := Instant.of?_eq_some_iff.mp hj
        rw [hoff, hs, hn, Int.sub_add_cancel]
      · cases h
    · cases h
  · rintro rfl
    refine ⟨zone.offsetAt i, zone.offsetAt_mem_offsets i, ?_⟩
    have hi : Instant.of? (i.second + zone.offsetAt i - zone.offsetAt i) i.nano = some i :=
      Instant.of?_eq_some_iff.mpr ⟨by omega, rfl⟩
    rw [hi]
    simp

theorem foldl_earlier_mem : ∀ (rest : List Instant) (i : Instant),
    rest.foldl earlier i ∈ i :: rest
  | [], i => by simp
  | j :: rest, i => by
    rw [List.foldl_cons]
    have hij : earlier i j = i ∨ earlier i j = j := by
      unfold earlier
      split <;> simp
    rcases List.mem_cons.mp (foldl_earlier_mem rest (earlier i j)) with h | h
    · rw [h]
      rcases hij with hij | hij <;> simp [hij]
    · exact List.mem_cons_of_mem _ (List.mem_cons_of_mem _ h)

/-- The first instant found for a local time is one at which clocks show it. -/
theorem localTime_of_firstInstantAt? (h : zone.firstInstantAt? t = some i) :
    zone.localTime i = t := by
  unfold firstInstantAt? at h
  split at h
  · cases h
  · next j rest hl =>
    cases h
    rw [← mem_instantsAt_iff, hl]
    exact foldl_earlier_mem rest j

@[simp] theorem offsetAt_fixed (offset : Int) (i : Instant) : (fixed offset).offsetAt i = offset :=
  rfl

/-- With one offset a local time is shown at one instant. -/
theorem firstInstantAt?_fixed (offset : Int) (t : LocalTime) :
    (fixed offset).firstInstantAt? t = Instant.of? (t.second - offset) t.nano := by
  have h : (fixed offset).instantsAt t = (Instant.of? (t.second - offset) t.nano).toList := by
    unfold instantsAt fixed offsets
    cases hi : Instant.of? (t.second - offset) t.nano <;> simp [hi, offsetAt]
  unfold firstInstantAt?
  rw [h]
  cases Instant.of? (t.second - offset) t.nano <;> rfl

end Zone

/-! ## Occurrences in any zone -/

namespace Alarm

variable {alarm : Alarm} {zone : Zone} {anchor i j : Instant}

/-- Local clocks show the alarm's hour and minute, and nothing beyond. -/
def RingsAt (alarm : Alarm) (zone : Zone) (i : Instant) : Prop :=
  (zone.localTime i).hour = alarm.hour ∧ (zone.localTime i).minute = alarm.minute ∧
    (zone.localTime i).secondOfMinute = 0 ∧ (zone.localTime i).nano = 0

instance (alarm : Alarm) (zone : Zone) (i : Instant) : Decidable (alarm.RingsAt zone i) :=
  inferInstanceAs (Decidable (_ ∧ _ ∧ _ ∧ _))

/-- The occurrences of an alarm are its full minutes of all days. -/
theorem ringsAt_iff : alarm.RingsAt zone i ↔
    ∃ day : Int, zone.localTime i = .atMinute day alarm.hour alarm.minute := by
  have hh := alarm.hour.isLt
  have hm := alarm.minute.isLt
  unfold RingsAt LocalTime.hour LocalTime.minute LocalTime.secondOfMinute LocalTime.secondOfDay
    LocalTime.atMinute secondNanos
  obtain ⟨second, nano⟩ := zone.localTime i
  simp only [LocalTime.mk.injEq]
  constructor
  · rintro ⟨h1, h2, h3, rfl⟩
    refine ⟨second / 86400, ?_, rfl⟩
    rw [if_neg (by decide)] at h3
    omega
  · rintro ⟨day, rfl, rfl⟩
    rw [if_neg (by decide)]
    omega

theorem RingsAt.nano_eq_zero (h : alarm.RingsAt zone i) : i.nano = 0 := h.2.2.2

theorem RingsAt.not_isLeap (h : alarm.RingsAt zone i) : ¬ i.IsLeap :=
  Instant.not_isLeap_of_nano_eq_zero h.nano_eq_zero

theorem ringsAt_of_onDay? {day : Int} (h : alarm.onDay? zone day = some i) :
    alarm.RingsAt zone i := by
  unfold onDay? at h
  dsimp only at h
  split at h
  · exact ringsAt_iff.mpr ⟨day, Zone.localTime_of_firstInstantAt? h⟩
  · cases h

theorem ringsAt_of_probe? : ∀ {n : Nat} {day : Int}, alarm.probe? zone n day = some i →
    alarm.RingsAt zone i
  | 0, _, h => by cases h
  | n + 1, day, h => by
    unfold probe? at h
    split at h
    · next j hj =>
      cases h
      exact ringsAt_of_onDay? hj
    · exact ringsAt_of_probe? h

/-- What is found after an anchor is an occurrence. -/
theorem ringsAt_of_nextAfter (h : alarm.nextAfter zone anchor = .ok i) : alarm.RingsAt zone i := by
  unfold nextAfter at h
  dsimp only at h
  split at h
  · split at h
    · next j hj =>
      cases h
      exact ringsAt_of_probe? hj
    · cases h
  · cases h

/-! ## Occurrences in a zone with one offset -/

variable {offset : Int}

/-- Occurrences are a day apart : a span of a day, open at its start, holds one. -/
theorem RingsAt.eq_of_within_day (hi : alarm.RingsAt (.fixed offset) i)
    (hj : alarm.RingsAt (.fixed offset) j) {n : Int}
    (hi' : n < i.unixNanos ∧ i.unixNanos ≤ n + Span.day)
    (hj' : n < j.unixNanos ∧ j.unixNanos ≤ n + Span.day) : i = j := by
  obtain ⟨d, hd⟩ := ringsAt_iff.mp hi
  obtain ⟨e, he⟩ := ringsAt_iff.mp hj
  have hi0 := hi.nano_eq_zero
  have hj0 := hj.nano_eq_zero
  have hds := congrArg LocalTime.second hd
  have hes := congrArg LocalTime.second he
  simp only [Zone.localTime, Zone.offsetAt_fixed, LocalTime.atMinute] at hds hes
  unfold Instant.unixNanos secondNanos Span.day Span.ofSeconds at hi' hj'
  exact Instant.ext_parts (by omega) (by omega)

/-- The full minute of the alarm on the first day looked at lies in the day after the
anchor's local time. -/
theorem atMinute_firstDay (alarm : Alarm) (t : LocalTime) :
    t.second < (LocalTime.atMinute (t.dayCount + alarm.firstDay t) alarm.hour alarm.minute).second ∧
      (LocalTime.atMinute (t.dayCount + alarm.firstDay t) alarm.hour alarm.minute).second ≤
        t.second + 86400 := by
  have hh := alarm.hour.isLt
  have hm := alarm.minute.isLt
  unfold firstDay LocalTime.atMinute LocalTime.dayCount
  by_cases h : alarm.IsAfter t.hour t.minute
  · rw [if_pos h]
    unfold IsAfter LocalTime.hour LocalTime.minute LocalTime.secondOfDay at h
    dsimp only
    omega
  · rw [if_neg h]
    unfold IsAfter LocalTime.hour LocalTime.minute LocalTime.secondOfDay at h
    dsimp only
    omega

/-- The day after an anchor is in range, both on the Unix scale and on local clocks. -/
def DayInRange (zone : Zone) (anchor : Instant) : Prop :=
  ∃ next ∈ anchor.shift? Span.day, (zone.localTime anchor).InRange ∧
    (zone.localTime next).InRange

instance (zone : Zone) (anchor : Instant) : Decidable (DayInRange zone anchor) :=
  inferInstanceAs (Decidable (∃ next ∈ anchor.shift? Span.day, _ ∧ _))

/-- In a zone with one offset the occurrence of a day is found where local clocks show it. -/
theorem onDay?_fixed (alarm : Alarm) {day second : Int}
    (hsecond : (LocalTime.atMinute day alarm.hour alarm.minute).second = second + offset)
    (hrange : (LocalTime.atMinute day alarm.hour alarm.minute).InRange)
    (hlower : Instant.firstSecond ≤ second) (hupper : second ≤ Instant.lastSecond) :
    ∃ i, alarm.onDay? (.fixed offset) day = some i ∧ i.second = second ∧ i.nano = 0 := by
  obtain ⟨i, hi⟩ := Option.isSome_iff_exists.mp (Instant.of?_zero_isSome hlower hupper)
  refine ⟨i, ?_, Instant.of?_eq_some_iff.mp hi⟩
  unfold onDay?
  dsimp only
  rw [if_pos hrange, Zone.firstInstantAt?_fixed, hsecond, Int.add_sub_cancel]
  exact hi

/-- The first day looked at is the day of what is found, if there is an occurrence on it. -/
theorem nextAfter_of_onDay? {t : LocalTime} (ht : zone.localTime anchor = t)
    (hrange : t.InRange) (hday : alarm.onDay? zone (t.dayCount + alarm.firstDay t) = some i) :
    alarm.nextAfter zone anchor = .ok i := by
  unfold nextAfter
  dsimp only
  rw [ht, if_pos hrange]
  unfold probedDays probe?
  rw [hday]

/-- In a zone with one offset an occurrence is found whose second is after that of the anchor, by
at most a day. -/
theorem nextAfter_fixed_second (alarm : Alarm)
    (hhere : ((Zone.fixed offset).localTime anchor).InRange)
    (hthere : anchor.second + 86400 ≤ Instant.lastSecond)
    (hlocal : anchor.second + 86400 + offset ≤ Instant.lastSecond) :
    ∃ i, alarm.nextAfter (.fixed offset) anchor = .ok i ∧ alarm.RingsAt (.fixed offset) i ∧
      anchor.second < i.second ∧ i.second ≤ anchor.second + 86400 := by
  generalize ht : (Zone.fixed offset).localTime anchor = t at hhere
  obtain ⟨hlt, hle⟩ := alarm.atMinute_firstDay t
  have hanchor : t.second = anchor.second + offset := ht ▸ rfl
  rw [hanchor] at hlt hle
  -- The occurrence lies between the anchor and the day after it, which are both in range.
  have hrange : (LocalTime.atMinute (t.dayCount + alarm.firstDay t) alarm.hour
      alarm.minute).InRange := by
    unfold LocalTime.InRange at hhere ⊢
    omega
  have hfirst := anchor.first_le
  obtain ⟨i, hi, his, -⟩ := alarm.onDay?_fixed (Int.sub_add_cancel _ offset).symm hrange
    (by omega) (by omega)
  have hfound := nextAfter_of_onDay? ht hhere hi
  exact ⟨i, hfound, ringsAt_of_nextAfter hfound, by omega, by omega⟩

/-- In a zone with one offset the occurrence of the day after an anchor is found. -/
theorem nextAfter_fixed (alarm : Alarm) (hleap : ¬ anchor.IsLeap)
    (hroom : DayInRange (.fixed offset) anchor) :
    ∃ i, alarm.nextAfter (.fixed offset) anchor = .ok i ∧ alarm.RingsAt (.fixed offset) i ∧
      anchor.unixNanos < i.unixNanos ∧ i.unixNanos ≤ anchor.unixNanos + Span.day := by
  obtain ⟨next, hnext, hhere, hthere⟩ := hroom
  obtain ⟨hleap', hday⟩ := (Instant.shift?_eq_some_iff hleap).mp hnext
  have hsecond : next.second = anchor.second + 86400 := by
    unfold Instant.IsLeap secondNanos at hleap hleap'
    unfold Instant.unixNanos secondNanos Span.day Span.ofSeconds at hday
    omega
  have hlocal : next.second + offset ≤ Instant.lastSecond := hthere.2
  rw [hsecond] at hlocal
  obtain ⟨i, hi, hrings, hafter, hbefore⟩ :=
    alarm.nextAfter_fixed_second hhere (hsecond ▸ next.le_last) hlocal
  refine ⟨i, hi, hrings, ?_⟩
  have hin := hrings.nano_eq_zero
  unfold Instant.IsLeap secondNanos at hleap
  unfold Instant.unixNanos secondNanos Span.day Span.ofSeconds
  omega

end Alarm

end Reveille
