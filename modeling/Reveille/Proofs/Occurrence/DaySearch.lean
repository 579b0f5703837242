import Reveille.Proofs.Scheduler.OncePerDay

/-!
# The search over days

In any zone `Alarm.nextAfter` finds what its specification names (`Alarm.FoundOn`) : among the seven
days looked at, the first one in range on which local clocks show the alarm's time, and the first
instant at which they show it on that day (`Alarm.finds_first_shown`). It refuses an anchor only for
want of such a day. Of the anchor it matters in what minute local clocks are there.
-/

namespace Reveille

/-! ## The first instant of a local time -/

namespace Zone

variable {zone : Zone} {t : LocalTime} {i : Instant}

/-- A local time that clocks show at some instant has a first one. -/
theorem exists_firstInstantAt? (h : zone.localTime i = t) :
    ∃ j, zone.firstInstantAt? t = some j := by
  have hmem : i ∈ zone.instantsAt t := mem_instantsAt_iff.mpr h
  unfold firstInstantAt?
  cases hl : zone.instantsAt t with
  | nil =>
    rw [hl] at hmem
    cases hmem
  | cons j rest => exact ⟨rest.foldl earlier j, rfl⟩

theorem firstInstantAt?_eq_some_iff : zone.firstInstantAt? t = some i ↔
    zone.localTime i = t ∧ ∀ j, zone.localTime j = t → i ≤ j := by
  refine ⟨fun h => ⟨localTime_of_firstInstantAt? h, fun j => le_of_firstInstantAt? h⟩, ?_⟩
  rintro ⟨hi, hleast⟩
  obtain ⟨j, hj⟩ := exists_firstInstantAt? hi
  have hji : j ≤ i := le_of_firstInstantAt? hj hi
  have hij : i ≤ j := hleast j (localTime_of_firstInstantAt? hj)
  rw [hj, Instant.eq_of_not_lt hij hji]

end Zone

namespace Alarm

variable {alarm : Alarm} {zone : Zone} {anchor i : Instant} {t : LocalTime} {day : Int} {n : Nat}

/-! ## One day -/

/-- The day is in range, and local clocks show the alarm's time on it. -/
def ShownOn (alarm : Alarm) (zone : Zone) (day : Int) : Prop :=
  (LocalTime.atMinute day alarm.hour alarm.minute).InRange ∧
    ∃ i, zone.localTime i = .atMinute day alarm.hour alarm.minute

theorem onDay?_eq_some_iff : alarm.onDay? zone day = some i ↔
    (LocalTime.atMinute day alarm.hour alarm.minute).InRange ∧
      zone.localTime i = .atMinute day alarm.hour alarm.minute ∧
      ∀ j, zone.localTime j = .atMinute day alarm.hour alarm.minute → i ≤ j := by
  unfold onDay?
  dsimp only
  by_cases hrange : (LocalTime.atMinute day alarm.hour alarm.minute).InRange
  · rw [if_pos hrange, Zone.firstInstantAt?_eq_some_iff]
    exact (and_iff_right hrange).symm
  · rw [if_neg hrange]
    simp [hrange]

theorem onDay?_eq_none_iff : alarm.onDay? zone day = none ↔ ¬ alarm.ShownOn zone day := by
  constructor
  · rintro h ⟨hrange, j, hj⟩
    obtain ⟨k, hk⟩ := Zone.exists_firstInstantAt? hj
    unfold onDay? at h
    dsimp only at h
    rw [if_pos hrange, hk] at h
    cases h
  · intro h
    cases hi : alarm.onDay? zone day with
    | none => rfl
    | some i =>
      obtain ⟨hrange, hshows, -⟩ := onDay?_eq_some_iff.mp hi
      exact absurd ⟨hrange, i, hshows⟩ h

/-! ## Day after day -/

/-- The search ends on the first day with an occurrence. -/
theorem probe?_eq_some_iff : ∀ {n : Nat} {day : Int}, alarm.probe? zone n day = some i ↔
    ∃ k < n, (∀ j < k, alarm.onDay? zone (day + (j : Int)) = none) ∧
      alarm.onDay? zone (day + (k : Int)) = some i
  | 0, day => by simp [probe?]
  | n + 1, day => by
    have hnext : ∀ k : Nat, day + ((k + 1 : Nat) : Int) = day + 1 + (k : Int) := by omega
    unfold probe?
    rw [Nat.exists_lt_succ_left]
    simp only [Nat.forall_lt_succ_left, hnext, Int.natCast_zero, Int.add_zero]
    cases hday : alarm.onDay? zone day with
    | some j => simp
    | none => simp [probe?_eq_some_iff]

theorem probe?_eq_none_iff : ∀ {n : Nat} {day : Int}, alarm.probe? zone n day = none ↔
    ∀ k < n, alarm.onDay? zone (day + (k : Int)) = none
  | 0, day => by simp [probe?]
  | n + 1, day => by
    have hnext : ∀ k : Nat, day + ((k + 1 : Nat) : Int) = day + 1 + (k : Int) := by omega
    unfold probe?
    simp only [Nat.forall_lt_succ_left, hnext, Int.natCast_zero, Int.add_zero]
    cases hday : alarm.onDay? zone day with
    | some j => simp
    | none => simp [probe?_eq_none_iff]

/-! ## From an anchor -/

/-- The days looked at, counted from the date of a local time : seven, the first of them that date
if the alarm's time is after the hour and minute shown, else the next date. -/
def LooksAt (alarm : Alarm) (t : LocalTime) (k : Nat) : Prop :=
  if alarm.IsAfter t.hour t.minute then k < 7 else 1 ≤ k ∧ k < 8

theorem looksAt_iff {k : Nat} :
    alarm.LooksAt t k ↔ ∃ j < probedDays, k = alarm.firstDay t + j := by
  unfold LooksAt firstDay probedDays
  split
  · simp
  · constructor
    · rintro ⟨hone, hlast⟩
      exact ⟨k - 1, by omega, by omega⟩
    · rintro ⟨j, hj, rfl⟩
      omega

/-- What a search from the local time `t` is to find, on the day `k` days later : the first of the
days looked at on which clocks show the alarm's time, and the first instant at which they do. -/
structure FoundOn (alarm : Alarm) (zone : Zone) (t : LocalTime) (k : Nat) (i : Instant) :
    Prop where
  looked : alarm.LooksAt t k
  skipped : ∀ j < k, alarm.LooksAt t j → ¬ alarm.ShownOn zone (t.dayCount + (j : Int))
  inRange : (LocalTime.atMinute (t.dayCount + (k : Int)) alarm.hour alarm.minute).InRange
  shows : zone.localTime i = .atMinute (t.dayCount + (k : Int)) alarm.hour alarm.minute
  first : ∀ j, zone.localTime j = zone.localTime i → i ≤ j

theorem exists_foundOn_iff : (∃ k, alarm.FoundOn zone t k i) ↔
    alarm.probe? zone probedDays (t.dayCount + (alarm.firstDay t : Int)) = some i := by
  have hday : ∀ j : Nat, t.dayCount + (alarm.firstDay t : Int) + (j : Int) =
      t.dayCount + ((alarm.firstDay t + j : Nat) : Int) := by omega
  rw [probe?_eq_some_iff]
  simp only [hday, onDay?_eq_none_iff, onDay?_eq_some_iff]
  constructor
  · rintro ⟨k, h⟩
    obtain ⟨j, hj, rfl⟩ := looksAt_iff.mp h.looked
    have hfirst : ∀ m, zone.localTime m = _ → i ≤ m :=
      fun m hm => h.first m (hm.trans h.shows.symm)
    refine ⟨j, hj, fun l hl => ?_, h.inRange, h.shows, hfirst⟩
    exact h.skipped _ (by omega) (looksAt_iff.mpr ⟨l, by omega, rfl⟩)
  · rintro ⟨j, hj, hskipped, hrange, hshows, hfirst⟩
    refine ⟨alarm.firstDay t + j, looksAt_iff.mpr ⟨j, hj, rfl⟩, fun k hk hlooked => ?_, hrange,
      hshows, fun m hm => hfirst m (hm.trans hshows)⟩
    obtain ⟨l, -, rfl⟩ := looksAt_iff.mp hlooked
    exact hskipped l (by omega)

theorem probe?_probedDays_eq_none_iff :
    alarm.probe? zone probedDays (t.dayCount + (alarm.firstDay t : Int)) = none ↔
      ∀ k, alarm.LooksAt t k → ¬ alarm.ShownOn zone (t.dayCount + (k : Int)) := by
  have hday : ∀ j : Nat, t.dayCount + (alarm.firstDay t : Int) + (j : Int) =
      t.dayCount + ((alarm.firstDay t + j : Nat) : Int) := by omega
  rw [probe?_eq_none_iff]
  simp only [hday, onDay?_eq_none_iff]
  constructor
  · rintro h k hk
    obtain ⟨j, hj, rfl⟩ := looksAt_iff.mp hk
    exact h j hj
  · rintro h j hj
    exact h _ (looksAt_iff.mpr ⟨j, hj, rfl⟩)

theorem inRange_of_nextAfter (h : alarm.nextAfter zone anchor = .ok i) :
    (zone.localTime anchor).InRange := by
  unfold nextAfter at h
  dsimp only at h
  split at h
  · next hrange => exact hrange
  · cases h

theorem nextAfter_eq_ok_iff (h : (zone.localTime anchor).InRange) :
    alarm.nextAfter zone anchor = .ok i ↔ ∃ k, alarm.FoundOn zone (zone.localTime anchor) k i := by
  rw [exists_foundOn_iff]
  unfold nextAfter
  dsimp only
  rw [if_pos h]
  split
  · next j hj => simp [hj]
  · next hnone => simp [hnone]

theorem nextAfter_eq_error_iff (h : (zone.localTime anchor).InRange) {refusal : Refusal} :
    alarm.nextAfter zone anchor = .error refusal ↔
      refusal = .noOccurrence alarm (zone.localTime anchor) ∧
        ∀ k, alarm.LooksAt (zone.localTime anchor) k →
          ¬ alarm.ShownOn zone ((zone.localTime anchor).dayCount + (k : Int)) := by
  rw [← probe?_probedDays_eq_none_iff]
  unfold nextAfter
  dsimp only
  rw [if_pos h]
  split
  · next j hj => simp [hj]
  · next hnone => simp [hnone, eq_comm]

/-! ## The specification -/

section SameMinute

variable {t' : LocalTime} {k : Nat}

theorem looksAt_congr (hhour : t'.hour = t.hour) (hminute : t'.minute = t.minute) :
    alarm.LooksAt t' k ↔ alarm.LooksAt t k := by
  unfold LooksAt
  rw [hhour, hminute]

/-- The day and the instant of a search depend on the date, hour and minute it starts from. -/
theorem FoundOn.congr (h : alarm.FoundOn zone t k i) (hday : t'.dayCount = t.dayCount)
    (hhour : t'.hour = t.hour) (hminute : t'.minute = t.minute) : alarm.FoundOn zone t' k i := by
  refine ⟨(looksAt_congr hhour hminute).mpr h.looked, fun j hj hlooked => ?_, ?_, ?_, h.first⟩
  · rw [hday]
    exact h.skipped j hj ((looksAt_congr hhour hminute).mp hlooked)
  · rw [hday]
    exact h.inRange
  · rw [hday]
    exact h.shows

end SameMinute

/-- From an anchor whose local time is in range, in any zone : the instant found is the one that
`FoundOn` names, local clocks show the alarm's hour and minute there, without seconds, on a day
looked at, and one is found exactly if clocks show them on a day looked at. The only refusal says
that they do not. Another anchor in the same minute of local clocks finds the same instant, or is
refused with it. -/
theorem finds_first_shown (alarm : Alarm) (zone : Zone) (anchor : Instant)
    (hrange : (zone.localTime anchor).InRange) :
    let t := zone.localTime anchor
    (∀ i, alarm.nextAfter zone anchor = .ok i ↔ ∃ k, alarm.FoundOn zone t k i) ∧
      (∀ k i, alarm.FoundOn zone t k i → alarm.RingsAt zone i ∧
        (zone.localTime i).date = Date.ofDays (t.dayCount + (k : Int))) ∧
      ((∃ i, alarm.nextAfter zone anchor = .ok i) ↔
        ∃ k, alarm.LooksAt t k ∧ alarm.ShownOn zone (t.dayCount + (k : Int))) ∧
      (∀ refusal, alarm.nextAfter zone anchor = .error refusal ↔ refusal = .noOccurrence alarm t ∧
        ∀ k, alarm.LooksAt t k → ¬ alarm.ShownOn zone (t.dayCount + (k : Int))) ∧
      ∀ anchor', (zone.localTime anchor').InRange → (zone.localTime anchor').date = t.date →
        (zone.localTime anchor').hour = t.hour → (zone.localTime anchor').minute = t.minute →
          (∀ i, alarm.nextAfter zone anchor' = .ok i ↔ alarm.nextAfter zone anchor = .ok i) ∧
          (alarm.nextAfter zone anchor' = .error (.noOccurrence alarm (zone.localTime anchor')) ↔
            alarm.nextAfter zone anchor = .error (.noOccurrence alarm t)) := by
  intro t
  have hok : ∀ i, alarm.nextAfter zone anchor = .ok i ↔ ∃ k, alarm.FoundOn zone t k i :=
    fun i => nextAfter_eq_ok_iff hrange
  have herror : ∀ refusal, alarm.nextAfter zone anchor = .error refusal ↔
      refusal = .noOccurrence alarm t ∧
        ∀ k, alarm.LooksAt t k → ¬ alarm.ShownOn zone (t.dayCount + (k : Int)) :=
    fun refusal => nextAfter_eq_error_iff hrange
  refine ⟨hok, ?_, ?_, herror, ?_⟩
  · intro k i h
    refine ⟨ringsAt_iff.mpr ⟨_, h.shows⟩, ?_⟩
    unfold LocalTime.date
    rw [h.shows, LocalTime.dayCount_atMinute]
  · constructor
    · rintro ⟨i, hi⟩
      obtain ⟨k, h⟩ := (hok i).mp hi
      exact ⟨k, h.looked, h.inRange, i, h.shows⟩
    · rintro ⟨k, hlooked, hshown⟩
      cases hres : alarm.nextAfter zone anchor with
      | ok i => exact ⟨i, rfl⟩
      | error refusal => exact absurd hshown (((herror refusal).mp hres).2 k hlooked)
  · intro anchor' hrange' hdate hhour hminute
    have hday : (zone.localTime anchor').dayCount = t.dayCount := Date.ofDays_injective hdate
    constructor
    · intro i
      rw [hok, nextAfter_eq_ok_iff hrange']
      constructor
      · rintro ⟨k, h⟩
        exact ⟨k, h.congr hday.symm hhour.symm hminute.symm⟩
      · rintro ⟨k, h⟩
        exact ⟨k, h.congr hday hhour hminute⟩
    · rw [herror, nextAfter_eq_error_iff hrange', hday]
      simp only [looksAt_congr hhour hminute, true_and]

/-- At 02:00 on 8 March 2026 the clocks of a zone go forward by an hour. From the evening before,
an alarm at 02:30 is found on 9 March, at whatever second of the minute the search starts. -/
theorem finds_after_gap :
    let zone : Zone := .table (-18000)
      [(⟨1772953200, 0, by decide, by decide, by decide, by decide⟩, -14400)]
    let alarm : Alarm := ⟨2, 30⟩
    let evening : Instant := ⟨1772942400, 0, by decide, by decide, by decide, by decide⟩
    let later : Instant := ⟨1772942445, 500, by decide, by decide, by decide, by decide⟩
    let found : Instant := ⟨1773037800, 0, by decide, by decide, by decide, by decide⟩
    (zone.localTime evening).InRange ∧ (zone.localTime later).InRange ∧
      alarm.FoundOn zone (zone.localTime evening) 2 found ∧
      alarm.nextAfter zone evening = .ok found ∧ alarm.nextAfter zone later = .ok found := by
  intro zone alarm evening later found
  have hevening : (zone.localTime evening).InRange := by decide
  have hlater : (zone.localTime later).InRange := by decide
  obtain ⟨hok, hon, -, -, hsame⟩ := finds_first_shown alarm zone evening hevening
  have hprobe : alarm.probe? zone probedDays ((zone.localTime evening).dayCount +
      (alarm.firstDay (zone.localTime evening) : Int)) = some found := by decide
  obtain ⟨k, hk⟩ := exists_foundOn_iff.mpr hprobe
  have hres : alarm.nextAfter zone evening = .ok found := (hok found).mpr ⟨k, hk⟩
  have hday : (zone.localTime found).date =
      Date.ofDays ((zone.localTime evening).dayCount + 2) := by
    decide
  obtain rfl : k = 2 := by
    have := Date.ofDays_injective (hday.symm.trans (hon k found hk).2)
    omega
  have hsameDay : (zone.localTime later).dayCount = (zone.localTime evening).dayCount := by decide
  have hhour : (zone.localTime later).hour = (zone.localTime evening).hour := by decide
  have hminute : (zone.localTime later).minute = (zone.localTime evening).minute := by decide
  have hlike := hsame later hlater (congrArg Date.ofDays hsameDay) hhour hminute
  exact ⟨hevening, hlater, hk, hres, (hlike.1 found).mpr hres⟩

/-! ## The first occurrence in a zone with one offset -/

/-- The first occurrence after an anchor. -/
structure IsNext (alarm : Alarm) (zone : Zone) (anchor i : Instant) : Prop where
  ringsAt : alarm.RingsAt zone i
  after : anchor < i
  first : ∀ j, alarm.RingsAt zone j → anchor < j → i ≤ j

theorem IsNext.eq {j : Instant} (hi : alarm.IsNext zone anchor i)
    (hj : alarm.IsNext zone anchor j) : i = j :=
  Instant.eq_of_not_lt (hj.first i hi.ringsAt hi.after) (hi.first j hj.ringsAt hj.after)

variable {offset : Int}

/-- With one offset what is found is on the first day looked at : the range has no room for a later
day without that one. -/
theorem FoundOn.eq_firstDay {k : Nat} (ht : (Zone.fixed offset).localTime anchor = t)
    (hrange : t.InRange) (h : alarm.FoundOn (.fixed offset) t k i) : k = alarm.firstDay t := by
  obtain ⟨j, hj, rfl⟩ := looksAt_iff.mp h.looked
  cases j with
  | zero => rfl
  | succ j =>
    have hanchor : t.second = anchor.second + offset := ht ▸ rfl
    have hi : i.second + offset = (LocalTime.atMinute
        (t.dayCount + ((alarm.firstDay t + (j + 1) : Nat) : Int)) alarm.hour alarm.minute).second :=
      congrArg LocalTime.second h.shows
    obtain ⟨hafter, -⟩ := alarm.atMinute_firstDay t
    have hbefore : (LocalTime.atMinute (t.dayCount + (alarm.firstDay t : Int)) alarm.hour
        alarm.minute).second < i.second + offset := by
      rw [hi]
      unfold LocalTime.atMinute
      dsimp only
      omega
    have hupper : i.second + offset ≤ Instant.lastSecond := hi ▸ h.inRange.2
    have hfirst := anchor.first_le
    have hlast := i.le_last
    obtain ⟨m, hm, -⟩ := alarm.onDay?_fixed (Int.sub_add_cancel _ offset).symm
      ⟨Int.le_trans hrange.1 (Int.le_of_lt hafter), by omega⟩ (by omega) (by omega)
    obtain ⟨hday, hshows, -⟩ := onDay?_eq_some_iff.mp hm
    have hlooked : alarm.LooksAt t (alarm.firstDay t) := looksAt_iff.mpr ⟨0, by decide, rfl⟩
    exact absurd ⟨hday, m, hshows⟩ (h.skipped _ (by omega) hlooked)

/-- In a zone with one offset what is found after an anchor is the first occurrence after it. -/
theorem isNext_of_nextAfter (h : alarm.nextAfter (.fixed offset) anchor = .ok i) :
    alarm.IsNext (.fixed offset) anchor i := by
  have hrings := ringsAt_of_nextAfter h
  have hrange := inRange_of_nextAfter h
  obtain ⟨k, hk⟩ := (nextAfter_eq_ok_iff hrange).mp h
  generalize ht : (Zone.fixed offset).localTime anchor = t at hrange hk
  obtain rfl := hk.eq_firstDay ht hrange
  have hanchor : t.second = anchor.second + offset := ht ▸ rfl
  have hi : i.second + offset = _ := congrArg LocalTime.second hk.shows
  obtain ⟨hlt, hle⟩ := alarm.atMinute_firstDay t
  rw [← hi, hanchor] at hlt hle
  have hnano := hrings.nano_eq_zero
  refine ⟨hrings, .inl (by omega), fun j hj hafter hbefore => ?_⟩
  -- Occurrences are days apart, so there is none between the anchor and the one found.
  obtain ⟨day, hday⟩ := ringsAt_iff.mp hj
  have hjs : j.second + offset = _ := congrArg LocalTime.second hday
  have hjn := hj.nano_eq_zero
  unfold LocalTime.atMinute at hjs hi
  rw [Instant.lt_iff] at hafter hbefore
  dsimp only at hjs hi
  omega

end Alarm

end Reveille
