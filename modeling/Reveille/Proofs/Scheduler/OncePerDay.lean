import Reveille.Records
import Reveille.Proofs.Calendar
import Reveille.Proofs.Scheduler.FiringLaw

/-!
# Once a day

Whatever a zone does with its clocks, the date of an occurrence tells which occurrence it is : an
alarm that is searched for from any anchor is found at the first instant of a date at which clocks
show its time (`Alarm.onDay?_of_nextAfter`, `Alarm.le_of_onDay?`). A scheduler remembers instants,
so of one alarm it lets ring at most one occurrence a date, and where clocks repeat the alarm's
time the first one (`Scheduler.rings_once_a_day`).
-/

namespace Reveille

/-! ## Dates -/

theorem LocalTime.dayCount_atMinute (day : Int) (hour : Fin 24) (minute : Fin 60) :
    (atMinute day hour minute).dayCount = day := by
  have hh := hour.isLt
  have hm := minute.isLt
  unfold dayCount atMinute
  dsimp only
  omega

/-! ## The first instant of a local time -/

namespace Zone

variable {zone : Zone} {t : LocalTime} {i j : Instant}

theorem foldl_earlier_le : ∀ (rest : List Instant) (i : Instant),
    ∀ j ∈ i :: rest, rest.foldl earlier i ≤ j
  | [], i, j, hj => by
    rw [List.mem_singleton.mp hj]
    exact i.le_refl
  | k :: rest, i, j, hj => by
    rw [List.foldl_cons]
    have hfirst : rest.foldl earlier (earlier i k) ≤ earlier i k :=
      foldl_earlier_le rest _ _ List.mem_cons_self
    have hi : earlier i k ≤ i ∧ earlier i k ≤ k := by
      unfold earlier
      split
      · next hlt => exact ⟨fun h => Instant.lt_irrefl _ (Instant.lt_trans h hlt), k.le_refl⟩
      · next hnot => exact ⟨i.le_refl, hnot⟩
    rcases List.mem_cons.mp hj with rfl | hj
    · exact Instant.le_trans hfirst hi.1
    rcases List.mem_cons.mp hj with rfl | hj
    · exact Instant.le_trans hfirst hi.2
    · exact foldl_earlier_le rest _ _ (List.mem_cons_of_mem _ hj)

/-- No instant at which clocks show a local time comes before the first one found. -/
theorem le_of_firstInstantAt? (h : zone.firstInstantAt? t = some i) (hj : zone.localTime j = t) :
    i ≤ j := by
  have hmem : j ∈ zone.instantsAt t := mem_instantsAt_iff.mpr hj
  unfold firstInstantAt? at h
  split at h
  · cases h
  · next k rest hl =>
    cases h
    rw [hl] at hmem
    exact foldl_earlier_le rest k j hmem

end Zone

/-! ## Occurrences and their dates -/

namespace Alarm

variable {alarm : Alarm} {zone : Zone} {anchor i j : Instant}

/-- The occurrence of a date is on that date. -/
theorem dayCount_of_onDay? {day : Int} (h : alarm.onDay? zone day = some i) :
    (zone.localTime i).dayCount = day := by
  unfold onDay? at h
  dsimp only at h
  split at h
  · rw [Zone.localTime_of_firstInstantAt? h]
    exact LocalTime.dayCount_atMinute day alarm.hour alarm.minute
  · cases h

theorem onDay?_of_probe? : ∀ {n : Nat} {day : Int}, alarm.probe? zone n day = some i →
    alarm.onDay? zone (zone.localTime i).dayCount = some i
  | 0, _, h => by cases h
  | n + 1, day, h => by
    unfold probe? at h
    split at h
    · next j hj =>
      cases h
      rwa [dayCount_of_onDay? hj]
    · exact onDay?_of_probe? h

/-- What is found after an anchor is the occurrence of its own date. -/
theorem onDay?_of_nextAfter (h : alarm.nextAfter zone anchor = .ok i) :
    alarm.onDay? zone (zone.localTime i).dayCount = some i := by
  unfold nextAfter at h
  dsimp only at h
  split at h
  · split at h
    · next j hj =>
      cases h
      exact onDay?_of_probe? hj
    · cases h
  · cases h

/-- The occurrence of a date comes first among the instants of that date at which clocks show the
alarm's time. -/
theorem le_of_onDay? {day : Int} (h : alarm.onDay? zone day = some i)
    (hj : alarm.RingsAt zone j) (hday : (zone.localTime j).dayCount = day) : i ≤ j := by
  obtain ⟨day', hlocal⟩ := ringsAt_iff.mp hj
  obtain rfl : day' = day := by
    rw [← hday, hlocal, LocalTime.dayCount_atMinute]
  unfold onDay? at h
  dsimp only at h
  split at h
  · exact Zone.le_of_firstInstantAt? h hlocal
  · cases h

end Alarm

/-! ## Decisions on one alarm -/

namespace Scheduler

variable {s : Scheduler} {zone : Zone} {i : Instant}

theorem rung_cons_of_error {l : Look} {refusal : Refusal}
    (h : s.evaluate zone l.now (some l.alarm) = .error refusal) (looks : List Look) :
    s.rung zone (l :: looks) = s.rung zone looks := by
  unfold rung
  rw [decisions, h]
  rfl

/-- Among looks an occurrence rings that is found at one of them and has not been handled before
them, and it rings once. -/
theorem rung_nodup (zone : Zone) : ∀ (looks : List Look) (s : Scheduler),
    (s.rung zone looks).Nodup ∧ ∀ i ∈ s.rung zone looks, ¬ s.handled.Contains i ∧
      ∃ l ∈ looks, s.nextTrigger l.alarm zone l.now = .ok i
  | [], s => by simp [rung, decisions]
  | l :: looks, s => by
    have hmore : ∀ {i}, (∃ k ∈ looks, s.nextTrigger k.alarm zone k.now = .ok i) →
        ∃ k ∈ l :: looks, s.nextTrigger k.alarm zone k.now = .ok i := by
      rintro i ⟨k, hk, hi⟩
      exact ⟨k, List.mem_cons_of_mem l hk, hi⟩
    -- A look at which nothing rings leaves the scheduler as it is.
    have hquiet : (s.rung zone looks).Nodup ∧ ∀ i ∈ s.rung zone looks, ¬ s.handled.Contains i ∧
        ∃ k ∈ l :: looks, s.nextTrigger k.alarm zone k.now = .ok i := by
      obtain ⟨hnodup, hmem⟩ := rung_nodup zone looks s
      exact ⟨hnodup, fun i hi => (hmem i hi).imp_right hmore⟩
    cases he : s.evaluate zone l.now (some l.alarm) with
    | error refusal => rwa [rung_cons_of_error he]
    | ok res =>
      obtain ⟨d, s'⟩ := res
      rw [rung_cons he]
      obtain ⟨hnone, -⟩ | ⟨alarm, j, halarm, hj, hcase⟩ := evaluate_cases he
      · cases hnone
      cases halarm
      rcases hcase with ⟨rfl, rfl⟩ | ⟨rfl, -, rfl⟩ | ⟨rfl, hnew, rfl⟩
      · exact hquiet
      · exact hquiet
      have hjn : j.nano = 0 := (ringsAt_of_nextTrigger hj).nano_eq_zero
      obtain ⟨hnodup, hmem⟩ := rung_nodup zone looks (s.handling j)
      -- What rings later is neither `j` nor handled before.
      have hlater : ∀ i ∈ (s.handling j).rung zone looks, i ≠ j ∧ ¬ s.handled.Contains i ∧
          ∃ k ∈ looks, s.nextTrigger k.alarm zone k.now = .ok i := by
        intro i hi
        obtain ⟨hfree, k, hk, hik⟩ := hmem i hi
        rw [nextTrigger_handling] at hik
        rw [handled_handling, Handled.contains_insert_iff hjn
          (ringsAt_of_nextTrigger hik).nano_eq_zero, not_or] at hfree
        exact ⟨hfree.1, hfree.2, k, hk, hik⟩
      refine ⟨List.nodup_cons.mpr ⟨fun hmem => (hlater j hmem).1 rfl, hnodup⟩, fun i hi => ?_⟩
      rcases List.mem_cons.mp hi with rfl | hi
      · exact ⟨hnew, l, List.mem_cons_self, hj⟩
      · exact (hlater i hi).2.imp_right hmore

theorem onDay?_of_nextTrigger {alarm : Alarm} {now : Instant}
    (h : s.nextTrigger alarm zone now = .ok i) :
    alarm.onDay? zone (zone.localTime i).dayCount = some i := by
  unfold nextTrigger at h
  split at h
  · exact Alarm.onDay?_of_nextAfter h
  · cases h

/-- In any zone, with any settings and whatever the clock shows from look to look, the occurrences
of one alarm that ring are on different dates. Each of them is the first instant of its date at
which local clocks show the alarm's time. -/
theorem rings_once_a_day (alarm : Alarm) (zone : Zone) (settings : Settings)
    (nows : List Instant) :
    let rung := (ofSettings settings).rung zone (nows.map (Look.mk alarm))
    (rung.map fun i => (zone.localTime i).date).Nodup ∧
      ∀ i ∈ rung, alarm.RingsAt zone i ∧ ∀ j, alarm.RingsAt zone j →
        (zone.localTime j).date = (zone.localTime i).date → i ≤ j := by
  intro rung
  obtain ⟨hnodup, hmem⟩ := rung_nodup zone (nows.map (Look.mk alarm)) (ofSettings settings)
  have hfound : ∀ i ∈ rung, alarm.RingsAt zone i ∧
      alarm.onDay? zone (zone.localTime i).dayCount = some i := by
    intro i hi
    obtain ⟨-, l, hl, htrigger⟩ := hmem i hi
    obtain ⟨now, -, rfl⟩ := List.mem_map.mp hl
    exact ⟨ringsAt_of_nextTrigger htrigger, onDay?_of_nextTrigger htrigger⟩
  refine ⟨?_, fun i hi => ⟨(hfound i hi).1, fun j hj hdate => ?_⟩⟩
  · refine List.pairwise_map.mpr (hnodup.imp_of_mem fun {i j} hi hj hne hdate => hne ?_)
    have hi' := (hfound i hi).2
    rw [Date.ofDays_injective hdate, (hfound j hj).2] at hi'
    exact (Option.some.inj hi').symm
  · exact Alarm.le_of_onDay? (hfound i hi).2 hj (Date.ofDays_injective hdate)

/-- At 02:00 on 1 November 2026 the clocks of a zone go back by an hour. An alarm at 01:30 rings in
the first pass of the hour, and not in the second. -/
example :
    let zone : Zone := .table (-14400)
      [(⟨1793512800, 0, by decide, by decide, by decide, by decide⟩, -18000)]
    let first : Instant := ⟨1793511000, 0, by decide, by decide, by decide, by decide⟩
    let second : Instant := ⟨1793514600, 0, by decide, by decide, by decide, by decide⟩
    zone.localTime first = zone.localTime second ∧
      (ofSettings .defaults).rung zone [⟨⟨1, 30⟩, first⟩, ⟨⟨1, 30⟩, second⟩] = [first] := by
  decide

end Scheduler

end Reveille
