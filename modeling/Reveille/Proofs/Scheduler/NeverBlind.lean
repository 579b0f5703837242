import Reveille.Proofs.Calendar
import Reveille.Proofs.CommandLine.Overrides
import Reveille.Proofs.Config.Text
import Reveille.Proofs.Scheduler.FiringLaw

/-!
# Settings that see the whole window

Settings are accepted from a configuration file, or after the command line has overridden them,
only if the lookback covers the tolerance (`Settings.Accepted.tolerance_le`). An occurrence within
the tolerance of the present is then found (`Scheduler.never_blind`), but for two kinds of
accepted settings. Where the tolerance is as long as the lookback, the search starts right behind
the end of the window and misses an occurrence there. Where the two together are longer than a
day, the search ends before the window does. With a tolerance of less than half a day, both kinds
do miss occurrences (`Scheduler.seesAll_iff`).
-/

namespace Reveille

/-! ## Accepted settings -/

namespace Settings

/-- The settings are those of a configuration file, as they are or overridden by arguments. -/
def Accepted (s : Settings) : Prop :=
  ∃ text config, Config.parse text = .ok config ∧
    (s = config.settings ∨ ∃ a : Arguments, a.override config.settings = .ok s)

variable {s : Settings}

theorem accepted_of_parse (text : String)
    (h : (Config.parse text).toOption.map Config.settings = some s) : s.Accepted := by
  obtain ⟨config, hparse, rfl⟩ := Option.map_eq_some_iff.mp h
  exact ⟨text, config, toOption_eq_some_iff.mp hparse, .inl rfl⟩

theorem tolerance_nonneg (s : Settings) : 0 ≤ s.tolerance :=
  Int.mul_nonneg (Int.natCast_nonneg _) (by decide)

theorem lookback_nonneg (s : Settings) : 0 ≤ s.lookback :=
  Int.mul_nonneg (Int.natCast_nonneg _) (by decide)

theorem Accepted.windowFits (h : s.Accepted) : s.WindowFits := by
  obtain ⟨text, config, hparse, rfl | ⟨a, ha⟩⟩ := h
  · exact (Config.isSound_of_parse hparse).windowFits
  · exact (Arguments.override_eq_ok_iff.mp ha).2.1

theorem Accepted.tolerance_le (h : s.Accepted) : s.tolerance ≤ s.lookback :=
  h.windowFits.tolerance_le

end Settings

/-! ## Going back from the present -/

namespace Instant

variable {now i : Instant}

/-- The date on the clock of UTC is one of the years 1 to 9999. -/
def InCommonYears (now : Instant) : Prop :=
  1 ≤ (Zone.utc.localTime now).date.year ∧ (Zone.utc.localTime now).date.year ≤ 9999

instance (now : Instant) : Decidable now.InCommonYears := inferInstanceAs (Decidable (_ ∧ _))

theorem date_utc (now : Instant) :
    (Zone.utc.localTime now).date = Date.ofDays (now.second / 86400) := by
  unfold LocalTime.date LocalTime.dayCount Zone.utc Zone.localTime
  rw [Zone.offsetAt_fixed, Int.add_zero]

/-- The common years are far from the ends of the supported range. -/
theorem InCommonYears.second_bounds (h : now.InCommonYears) :
    -100000000000 ≤ now.second ∧ now.second ≤ 1000000000000 := by
  obtain ⟨h1, h2⟩ := h
  have hyear := Date.ofDays_year_bounds (now.second / 86400)
  rw [date_utc] at h1 h2
  unfold Date.epochDay at hyear
  omega

/-- How much longer than on the Unix scale a span back to the day before is : a leap second that
does not end its day counts. -/
def leapSlack (now : Instant) : Span :=
  if now.IsLeap ∧ now.secondOfDay < 86399 then Span.ofSeconds 1 else 0

/-- The span to an occurrence near by is that on the Unix scale, but for the leap second. -/
theorem unixNanos_bounds_of_since {limit : Span} (hi : ¬ i.IsLeap)
    (h : (now.since i).abs ≤ limit) :
    now.unixNanos - limit - now.leapSlack ≤ i.unixNanos ∧ i.unixNanos ≤ now.unixNanos + limit := by
  rw [Span.abs_le_iff] at h
  unfold since at h
  unfold leapSlack
  have hday : i.secondOfDay ≤ 86399 := by
    unfold secondOfDay
    omega
  unfold Span.ofSeconds secondNanos Span at *
  dsimp only at h
  rw [if_neg fun h => hi h.2] at h
  by_cases hlate : now.secondOfDay < i.secondOfDay ∧ now.IsLeap
  · rw [if_pos hlate] at h
    rw [if_pos ⟨hlate.2, by omega⟩]
    omega
  · rw [if_neg hlate] at h
    split <;> omega

/-- Going back from a common year by at most a day leads to an anchor. It lies in the second that
the Unix scale gives, but for a leap second that is not left. -/
theorem exists_shift?_back (h : now.InCommonYears) (back : Span) (hback : 0 ≤ back)
    (hday : back ≤ Span.day) : ∃ anchor, now.shift? (-back) = some anchor ∧
      (anchor.second * secondNanos ≤ now.unixNanos - back ∧
          now.unixNanos - back < (anchor.second + 1) * secondNanos ∨
        now.IsLeap ∧ back < secondNanos ∧ anchor.second = now.second) := by
  obtain ⟨hlower, hupper⟩ := h.second_bounds
  have hnano := now.nano_lt
  -- Everything but a leap second that is not left goes by the Unix scale.
  have hscale : ∃ anchor, ofUnixNanos? (now.unixNanos - back) = some anchor ∧
      anchor.second * secondNanos ≤ now.unixNanos - back ∧
      now.unixNanos - back < (anchor.second + 1) * secondNanos := by
    unfold ofUnixNanos? of? firstSecond lastSecond
    unfold unixNanos secondNanos Span.day Span.ofSeconds Span at *
    rw [dif_pos (by omega)]
    refine ⟨_, rfl, ?_⟩
    dsimp only
    omega
  unfold shift?
  by_cases hleap : now.IsLeap
  · rw [if_pos hleap]
    by_cases hwithin : (-back).natAbs < secondNanos ∧ now.nano + -back < 2 * secondNanos
    · rw [if_pos hwithin]
      have hfirst := now.first_le
      have hlast := now.le_last
      have hminute := now.leap_last
      unfold IsLeap at hleap
      unfold of? secondNanos Span at *
      rw [dif_pos (by omega)]
      exact ⟨_, rfl, .inr ⟨hleap, by omega, rfl⟩⟩
    · have hleave : secondNanos ≤ back := by
        unfold secondNanos Span at *
        omega
      rw [if_neg hwithin, if_pos (by unfold secondNanos Span at *; omega)]
      obtain ⟨anchor, hanchor, hsecond⟩ := hscale
      exact ⟨anchor, hanchor, .inl hsecond⟩
  · rw [if_neg hleap]
    obtain ⟨anchor, hanchor, hsecond⟩ := hscale
    exact ⟨anchor, hanchor, .inl hsecond⟩

end Instant

/-! ## The window of one look -/

namespace Scheduler

variable {s : Scheduler} {alarm : Alarm} {offset : Int} {now i : Instant}

/-- Where tolerance and lookback leave no gap, an occurrence within the tolerance is the one that is
waited for. -/
theorem nextTrigger_of_near (htolerance : 0 ≤ s.tolerance)
    (hpast : s.tolerance + now.leapSlack < s.lookback)
    (hday : s.tolerance + s.lookback ≤ Span.day) (hoffset : offset.natAbs < 86400)
    (hnow : now.InCommonYears) (hi : alarm.RingsAt (.fixed offset) i)
    (hnear : (now.since i).abs ≤ s.tolerance) :
    s.nextTrigger alarm (.fixed offset) now = .ok i := by
  obtain ⟨hlower, hupper⟩ := hnow.second_bounds
  obtain ⟨hlate, hearly⟩ := Instant.unixNanos_bounds_of_since hi.not_isLeap hnear
  have hslack : 0 ≤ now.leapSlack := by
    unfold Instant.leapSlack Span.ofSeconds
    split <;> decide
  have hi0 := hi.nano_eq_zero
  have hnano := now.nano_lt
  obtain ⟨anchor, hanchor, hsecond⟩ := Instant.exists_shift?_back hnow s.lookback
    (by unfold Span at *; omega) (by unfold Span at *; omega)
  have hplace : now.second - 86401 ≤ anchor.second ∧ anchor.second ≤ now.second + 1 := by
    unfold Instant.unixNanos secondNanos Span.day Span.ofSeconds Span at *
    omega
  -- The occurrence comes after the second of the anchor, by at most a day.
  have hafter : anchor.second < i.second ∧ i.second ≤ anchor.second + 86400 := by
    unfold Instant.IsLeap Instant.unixNanos secondNanos Span.day Span.ofSeconds Span at *
    omega
  have hfirst : Instant.firstSecond ≤ anchor.second + offset := by
    unfold Instant.firstSecond
    omega
  have hlast : anchor.second + 86400 + max 0 offset ≤ Instant.lastSecond := by
    unfold Instant.lastSecond
    omega
  have hrange : ((Zone.fixed offset).localTime anchor).InRange :=
    ⟨hfirst, by show anchor.second + offset ≤ _; omega⟩
  obtain ⟨j, hj, hrings, hj'⟩ := alarm.nextAfter_fixed_second hrange (by omega) (by omega)
  have hij : j = i := by
    have hj0 := hrings.nano_eq_zero
    refine hrings.eq_of_within_day hi (n := anchor.second * secondNanos) ?_ ?_ <;>
      unfold Instant.unixNanos secondNanos Span.day Span.ofSeconds <;> omega
  unfold nextTrigger
  rw [hanchor]
  exact hij ▸ hj

/-- So a fresh scheduler rings for it. -/
theorem evaluate_of_near {settings : Settings}
    (hpast : settings.tolerance + now.leapSlack < settings.lookback)
    (hday : settings.tolerance + settings.lookback ≤ Span.day) (hoffset : offset.natAbs < 86400)
    (hnow : now.InCommonYears) (hi : alarm.RingsAt (.fixed offset) i)
    (hnear : (now.since i).abs ≤ settings.tolerance) :
    ∃ s', (ofSettings settings).evaluate (.fixed offset) now (some alarm) =
      .ok (.triggered i, s') := by
  have hnext : (ofSettings settings).nextTrigger alarm (.fixed offset) now = .ok i :=
    nextTrigger_of_near settings.tolerance_nonneg hpast hday hoffset hnow hi hnear
  rw [evaluate_of_nextTrigger hnext]
  rcases (ofSettings settings).decide_cases i now with ⟨hfar, -⟩ | ⟨-, hc, -⟩ | ⟨-, -, hd⟩
  · exact absurd hnear hfar
  · exact absurd hc (Handled.not_contains_empty i)
  · exact ⟨_, congrArg _ hd⟩

/-- What is waited for lies in the day after the present less the lookback, if it is not at the end
of time. -/
theorem unixNanos_of_nextTrigger (hleap : ¬ now.IsLeap) (hlookback : 0 ≤ s.lookback)
    (hnow : now.second ≤ 86400) (h : s.nextTrigger alarm (.fixed 0) now = .ok i) :
    now.unixNanos - s.lookback < i.unixNanos ∧
      i.unixNanos ≤ now.unixNanos - s.lookback + Span.day := by
  unfold nextTrigger at h
  split at h
  · next anchor hanchor =>
    obtain ⟨hleap', hscale⟩ := (Instant.shift?_eq_some_iff hleap).mp hanchor
    have hfirst := anchor.first_le
    have hlast : anchor.second + 86400 ≤ Instant.lastSecond := by
      unfold Instant.IsLeap secondNanos at hleap hleap'
      unfold Instant.unixNanos secondNanos Instant.lastSecond Span at *
      omega
    have hrange : ((Zone.fixed 0).localTime anchor).InRange :=
      ⟨by show _ ≤ anchor.second + 0; omega, by show anchor.second + 0 ≤ _; omega⟩
    obtain ⟨j, hj, hrings, hafter, hbefore⟩ :=
      alarm.nextAfter_fixed_second hrange hlast (by rwa [Int.add_zero])
    rw [hj] at h
    cases h
    have hi0 := hrings.nano_eq_zero
    unfold Instant.IsLeap Instant.unixNanos secondNanos Span.day Span.ofSeconds Span at *
    omega
  · cases h

end Scheduler

/-! ## Settings that see every occurrence -/

namespace Settings

variable {s : Settings}

/-- Outside leap seconds, and in common years, a fresh scheduler rings whenever an occurrence is
within the tolerance. -/
def SeesAll (s : Settings) : Prop :=
  ∀ (alarm : Alarm) (offset : Int) (now i : Instant), offset.natAbs < 86400 →
    now.InCommonYears → ¬ now.IsLeap → alarm.RingsAt (.fixed offset) i →
    (now.since i).abs ≤ s.tolerance →
    ∃ j s', (Scheduler.ofSettings s).evaluate (.fixed offset) now (some alarm) =
        .ok (.triggered j, s') ∧
      alarm.RingsAt (.fixed offset) j ∧ (now.since j).abs ≤ s.tolerance

/-- Looks at the alarm of midnight, near the midnight of 1970-01-01, find what is near and in the
day after the anchor. -/
theorem SeesAll.exists_near_midnight (h : s.SeesAll) (hhalf : s.tolerance < Span.ofMinutes 720)
    {n : Int} (hn : -s.tolerance ≤ n ∧ n ≤ s.tolerance) :
    ∃ j, Alarm.RingsAt ⟨0, 0⟩ (.fixed 0) j ∧ n - s.lookback < j.unixNanos ∧
      j.unixNanos ≤ n - s.lookback + Span.day ∧
      n - s.tolerance ≤ j.unixNanos ∧ j.unixNanos ≤ n + s.tolerance := by
  have hepoch : Alarm.RingsAt ⟨0, 0⟩ (.fixed 0) Instant.epoch := by decide
  obtain ⟨now, hleap, hscale⟩ : ∃ now : Instant, ¬ now.IsLeap ∧ now.unixNanos = n := by
    have hsome : (Instant.ofUnixNanos? n).isSome = true := by
      unfold Instant.ofUnixNanos? Instant.of? Instant.firstSecond Instant.lastSecond
      unfold Span.ofMinutes Span.ofSeconds Span secondNanos at *
      rw [dif_pos (by omega)]
      rfl
    obtain ⟨now, hnow⟩ := Option.isSome_iff_exists.mp hsome
    exact ⟨now, Instant.ofUnixNanos?_eq_some_iff.mp hnow⟩
  have hepochNanos : Instant.epoch.unixNanos = 0 := rfl
  have hnear : (now.since Instant.epoch).abs ≤ s.tolerance := by
    rw [Instant.abs_since_le_iff hleap hepoch.not_isLeap, hscale, hepochNanos]
    unfold Span at *
    omega
  have hsecond : -86400 ≤ now.second ∧ now.second < 86400 := by
    unfold Instant.IsLeap secondNanos at hleap
    unfold Instant.unixNanos secondNanos Span.ofMinutes Span.ofSeconds Span at *
    omega
  have hnow : now.InCommonYears := by
    have hdays : now.second / 86400 = -1 ∨ now.second / 86400 = 0 := by omega
    unfold Instant.InCommonYears
    rw [Instant.date_utc]
    rcases hdays with hday | hday <;> rw [hday] <;> decide
  obtain ⟨j, s', hs', hj, hnear'⟩ :=
    h ⟨0, 0⟩ 0 now Instant.epoch (by decide) hnow hleap hepoch hnear
  rw [Instant.abs_since_le_iff hleap hj.not_isLeap, hscale] at hnear'
  obtain ⟨⟨⟩, -⟩ | ⟨_, _, ⟨⟩, hnext, ⟨⟨⟩, -⟩ | ⟨⟨⟩, -⟩ | ⟨⟨⟩, -⟩⟩ := Scheduler.evaluate_cases hs'
  have hfound := Scheduler.unixNanos_of_nextTrigger hleap s.lookback_nonneg (by omega) hnext
  rw [hscale] at hfound
  refine ⟨j, hj, hfound.1, hfound.2, ?_, ?_⟩ <;> unfold Span at * <;> omega

/-- Settings with a tolerance of less than half a day see every occurrence exactly if the lookback
is longer than the tolerance and the two together are no longer than a day. -/
theorem seesAll_iff (haccepted : s.Accepted) (hhalf : s.tolerance < Span.ofMinutes 720) :
    s.SeesAll ↔ s.tolerance ≠ s.lookback ∧ s.tolerance + s.lookback ≤ Span.day := by
  have hepoch : Alarm.RingsAt ⟨0, 0⟩ (.fixed 0) Instant.epoch := by decide
  have htolerance := s.tolerance_nonneg
  constructor
  · intro h
    refine ⟨fun hend => ?_, Int.not_lt.mp fun hlong => ?_⟩
    · -- The search starts right behind midnight.
      obtain ⟨j, hj, hafter, -, -, hbefore⟩ := h.exists_near_midnight hhalf (n := s.tolerance)
        (by unfold Span at *; omega)
      have : j = Instant.epoch := hj.eq_of_within_day hepoch (n := -1)
        (by unfold Span.ofMinutes Span.day Span.ofSeconds Span at *; omega) (by decide)
      subst this
      have : Instant.epoch.unixNanos = 0 := rfl
      unfold Span at *
      omega
    · -- The search ends before midnight.
      obtain ⟨j, hj, -, hbefore, hafter, -⟩ := h.exists_near_midnight hhalf (n := -s.tolerance)
        (by unfold Span at *; omega)
      have : j = Instant.epoch := hj.eq_of_within_day hepoch (n := -Span.day)
        (by unfold Span.ofMinutes Span.day Span.ofSeconds Span at *; omega) (by decide)
      subst this
      have : Instant.epoch.unixNanos = 0 := rfl
      unfold Span at *
      omega
  · rintro ⟨hend, hday⟩ alarm offset now i hoffset hnow hleap hi hnear
    have hpast : s.tolerance + now.leapSlack < s.lookback := by
      have hle := haccepted.tolerance_le
      unfold Instant.leapSlack
      rw [if_neg fun h => hleap h.1]
      unfold Span at *
      omega
    obtain ⟨s', hs'⟩ := Scheduler.evaluate_of_near hpast hday hoffset hnow hi hnear
    exact ⟨i, s', hs', hi, hnear⟩

end Settings

namespace Scheduler

/-- A fresh scheduler of accepted settings rings whenever an occurrence is within the tolerance, if
the tolerance is not as long as the lookback and the two together are no longer than a day. In a
leap second that does not end its day the lookback has to be longer than the tolerance by more
than a second. -/
theorem never_blind (settings : Settings) (haccepted : settings.Accepted)
    (hend : settings.tolerance ≠ settings.lookback)
    (hday : settings.tolerance + settings.lookback ≤ Span.day) (alarm : Alarm) (offset : Int)
    (hoffset : offset.natAbs < 86400) (now : Instant) (hnow : now.InCommonYears)
    (hleap : now.IsLeap → now.secondOfDay < 86399 →
      settings.tolerance + Span.ofSeconds 1 < settings.lookback)
    (i : Instant) (hi : alarm.RingsAt (.fixed offset) i)
    (hnear : (now.since i).abs ≤ settings.tolerance) :
    ∃ j s', (ofSettings settings).evaluate (.fixed offset) now (some alarm) =
        .ok (.triggered j, s') ∧
      alarm.RingsAt (.fixed offset) j ∧ (now.since j).abs ≤ settings.tolerance := by
  have hpast : settings.tolerance + now.leapSlack < settings.lookback := by
    have hle := haccepted.tolerance_le
    unfold Instant.leapSlack
    split
    · next h => exact hleap h.1 h.2
    · unfold Span at *
      omega
  obtain ⟨s', hs'⟩ := evaluate_of_near hpast hday hoffset hnow hi hnear
  exact ⟨i, s', hs', hi, hnear⟩

/-- Of the default settings, at the late end of the tolerance. -/
theorem never_blind_defaults :
    let eight : Instant := ⟨1781078400, 0, by decide, by decide, by decide, by decide⟩
    let now : Instant := ⟨1781078430, 0, by decide, by decide, by decide, by decide⟩
    let settings := Settings.defaults
    settings.Accepted ∧ (now.since eight).abs = settings.tolerance ∧
      ∃ j s', (ofSettings settings).evaluate (.fixed 0) now (some ⟨8, 0⟩) =
        .ok (.triggered j, s') ∧ (now.since j).abs ≤ settings.tolerance := by
  intro eight now settings
  have haccepted : settings.Accepted :=
    Settings.accepted_of_parse "\x7b\"version\":1\x7d" (by decide +kernel)
  obtain ⟨j, s', hs', -, hnear⟩ := never_blind settings haccepted (by decide) (by decide) ⟨8, 0⟩ 0
    (by decide) now (by decide) (fun hleap => absurd hleap (by decide)) eight (by decide)
    (by decide)
  exact ⟨haccepted, by decide, j, s', hs', hnear⟩

/-- With a tolerance as long as the lookback, as a file may set them, the end of the window is
missed : a minute after eight, eight o'clock is within the tolerance, but what is waited for is
eight o'clock of the next day. -/
theorem blind_at_late_end :
    let eight : Instant := ⟨1781078400, 0, by decide, by decide, by decide, by decide⟩
    let now : Instant := ⟨1781078460, 0, by decide, by decide, by decide, by decide⟩
    let tomorrow : Instant := ⟨1781164800, 0, by decide, by decide, by decide, by decide⟩
    let settings := { Settings.defaults with toleranceMs := 60000, lookbackMs := 60000 }
    settings.Accepted ∧ now.InCommonYears ∧ Alarm.RingsAt ⟨8, 0⟩ (.fixed 0) eight ∧
      (now.since eight).abs ≤ settings.tolerance ∧
      ((ofSettings settings).evaluate (.fixed 0) now (some ⟨8, 0⟩)).toOption.map Prod.fst =
        some (.notImminent tomorrow) := by
  intro eight now tomorrow settings
  have haccepted : settings.Accepted := Settings.accepted_of_parse
    ("\x7b\"version\":1," ++
      "\"settings\":\x7b\"tolerance_ms\":60000,\"lookback_ms\":60000\x7d\x7d")
    (by decide +kernel)
  exact ⟨haccepted, by decide, by decide, by decide, by decide +kernel⟩

end Scheduler

end Reveille
