import Reveille.Proofs.Scheduler.FiringLaw
import Reveille.Proofs.Session.Horizon
import Reveille.Proofs.Session.Told

/-!
# Polling misses nothing

A session that keeps pace, each of its ticks ending before the next is due, looks at the clock at
the multiples of its poll interval and nowhere else. If it is told its alarm at every tick, what
rings is what its scheduler lets ring at these looks (`Timeline.Stands.run`), whatever becomes of
the wake-ups that it saves. With a poll interval of at most twice the tolerance one of the looks
falls into the tolerance of every occurrence that the run covers (`exists_sample`), so each of
them rings, and once (`no_occurrence_missed`).
-/

namespace Reveille

/-! ## Sampling -/

/-- A grid that is not coarser than a span, and begins before its end, has a point in the span
if it has one after its start. -/
theorem exists_sample {first step lower upper : Int} (hstep : step ≤ upper - lower)
    (hfirst : first ≤ upper) : ∀ n : Nat, lower ≤ first + n * step →
      ∃ k ≤ n, lower ≤ first + k * step ∧ first + k * step ≤ upper
  | 0, hn => ⟨0, Nat.le_refl 0, hn, by omega⟩
  | n + 1, hn => by
    by_cases hbefore : lower ≤ first + n * step
    · obtain ⟨k, hk, hin⟩ := exists_sample hstep hfirst n hbefore
      exact ⟨k, Nat.le_succ_of_le hk, hin⟩
    · have hnext : first + ((n + 1 : Nat) : Int) * step = first + n * step + step := by
        rw [Int.natCast_add, Int.add_mul, Int.natCast_one, Int.one_mul, Int.add_assoc]
      exact ⟨n + 1, Nat.le_refl _, hn, by omega⟩

/-! ## Ticks at the multiples of the poll interval -/

/-- No tick is running. -/
def Standing.isResting : Standing → Bool
  | .resting _ _ _ => true
  | .ticking _ _ => false

namespace Timeline

variable {t : Timeline} {alarm : Alarm} {session : Session} {offset : Int} {now : Instant}
  {k m : Nat}

/-- No tick is running when the next one is due, up to the one numbered `n`. -/
def KeepsPace (t : Timeline) (n : Nat) : Prop :=
  ∀ k ≤ n, (t.advanceTo (k * t.settings.pollInterval)).standing.isResting = true

instance (t : Timeline) (n : Nat) : Decidable (t.KeepsPace n) :=
  inferInstanceAs (Decidable (∀ k ≤ n, _))

/-- The occurrences that have rung, in order. -/
def rung (t : Timeline) : List Instant := t.reports.reverse.filterMap reported?

/-- The looks at the clock of the ticks with these numbers. -/
def looks (start : Instant) (alarm : Alarm) (interval : Nat) (ks : List Nat) : List Look :=
  ks.filterMap fun k => (clock? start (k * interval)).map (Look.mk alarm)

/-- The session stands before its tick numbered `k`, and is told its alarm. -/
structure Stands (t : Timeline) (alarm : Alarm) (k : Nat) (session : Session) : Prop where
  resting : ∃ free ≤ k * t.settings.pollInterval,
    t.standing = .resting (k * t.settings.pollInterval) free session
  told : t.state.Tells t.settings.writeTimeout session.user alarm

/-- A tick that has ended when the next is due. -/
theorem Stands.tick (h : t.Stands alarm k session)
    (hclock : clock? t.start (k * t.settings.pollInterval) = some now)
    (hrest : (t.advanceTo ((k + 1) * t.settings.pollInterval)).standing.isResting = true) :
    ∃ res, session.Followed now (some alarm) res ∧ ∃ state standing,
      t.advanceTo ((k + 1) * t.settings.pollInterval) =
        { t with standing, state, reports := res.1 :: t.reports } ∧
      (t.advanceTo ((k + 1) * t.settings.pollInterval)).Stands alarm (k + 1) res.2 := by
  obtain ⟨free, hfree, hstands⟩ := h.resting
  have hpos := pollInterval_pos t.settings
  have hnext : (k + 1) * t.settings.pollInterval =
      k * t.settings.pollInterval + t.settings.pollInterval := Nat.succ_mul _ _
  have hlt : k * t.settings.pollInterval < (k + 1) * t.settings.pollInterval := by omega
  have htick : tickAt t.start session (k * t.settings.pollInterval) = session.tick now := by
    unfold tickAt
    rw [hclock]
  rw [advanceTo_of_resting hstands, ticks_on_time hfree hlt, ← hnext, htick] at hrest ⊢
  generalize hend : (session.tick now).advance t.settings.writeTimeout
    ((k + 1) * t.settings.pollInterval) (k * t.settings.pollInterval) t.state = p at hrest ⊢
  obtain ⟨progress, state⟩ := p
  cases progress with
  | waiting w => cases hrest
  | finished ends res =>
    obtain ⟨report, session'⟩ := res
    obtain ⟨htold, hfollowed⟩ := (session.tick_told now h.told).advance hend
    have hends := Activity.lt_of_finished hlt hend
    have hrests : (k + 1) * t.settings.pollInterval ≤
        max ((k + 1) * t.settings.pollInterval) ends := Nat.le_max_left _ _
    refine ⟨(report, session'), hfollowed, state, _, ticks_of_le hrests, ?_⟩
    rw [proceed, ticks_of_le hrests]
    refine ⟨⟨ends, Nat.le_of_lt hends, rfl⟩, ?_⟩
    have huser : session'.user = session.user := by cases hfollowed <;> rfl
    rw [huser]
    exact htold

/-- What the scheduler has decided at a tick is reported, and it goes on from there. -/
theorem Stands.look {d : Decision} {scheduler : Scheduler} (h : t.Stands alarm k session)
    (hclock : clock? t.start (k * t.settings.pollInterval) = some now)
    (he : session.scheduler.evaluate session.zone now (some alarm) = .ok (d, scheduler))
    (hrest : (t.advanceTo ((k + 1) * t.settings.pollInterval)).standing.isResting = true) :
    ∃ report session', reported? report = d.ringing? ∧ session'.zone = session.zone ∧
      session'.scheduler = scheduler ∧ ∃ state standing,
        t.advanceTo ((k + 1) * t.settings.pollInterval) =
          { t with standing, state, reports := report :: t.reports } ∧
        (t.advanceTo ((k + 1) * t.settings.pollInterval)).Stands alarm (k + 1) session' := by
  obtain ⟨res, hfollowed, state, standing, heq, hstands⟩ := h.tick hclock hrest
  cases hfollowed with
  | refused refusal ws h' =>
    rw [he] at h'
    cases h'
  | decided d' scheduler' phase ws h' =>
    rw [he] at h'
    cases h'
    exact ⟨_, { session with scheduler }.keeping ws, rfl, rfl, rfl, state, standing, heq, hstands⟩

theorem looks_cons {start : Instant} {interval : Nat} {ks : List Nat}
    (hclock : clock? start (k * interval) = some now) :
    looks start alarm interval (k :: ks) = ⟨alarm, now⟩ :: looks start alarm interval ks := by
  unfold looks
  rw [List.filterMap_cons, hclock]
  rfl

/-- A report adds to what has rung the occurrence that it reports. -/
theorem rung_report (t : Timeline) (standing : Standing) (state : Rehearsal)
    (report : Except SessionFault TickReport) :
    { t with standing, state, reports := report :: t.reports }.rung =
      t.rung ++ (reported? report).toList := by
  unfold rung
  rw [List.reverse_cons, List.filterMap_append]
  cases h : reported? report <;> simp [h]

/-- A run up to a multiple of an interval, taken up again. -/
theorem advanceTo_multiples (t : Timeline) (interval k j : Nat) :
    (t.advanceTo ((k + 1) * interval)).advanceTo ((k + 1 + j) * interval) =
      t.advanceTo ((k + (j + 1)) * interval) := by
  have hle : (k + 1) * interval ≤ (k + 1 + j) * interval :=
    Nat.mul_le_mul_right _ (Nat.le_add_right _ _)
  rw [advanceTo_advanceTo hle, Nat.add_assoc, Nat.add_comm 1 j]

/-- What rings at the ticks numbered `k` to `k + m` is what rings at their looks. -/
theorem Stands.run (h : t.Stands alarm k session) (hzone : session.zone = .fixed offset)
    (hday : session.scheduler.tolerance + session.scheduler.lookback ≤ Span.day)
    (hroom : ∀ j < m, ∃ now ∈ clock? t.start ((k + j) * t.settings.pollInterval),
      session.scheduler.HasRoom (.fixed offset) ⟨alarm, now⟩)
    (hpace : ∀ j ≤ m,
      (t.advanceTo ((k + j) * t.settings.pollInterval)).standing.isResting = true) :
    (t.advanceTo ((k + m) * t.settings.pollInterval)).reports.length = t.reports.length + m ∧
      (t.advanceTo ((k + m) * t.settings.pollInterval)).rung = t.rung ++
        session.scheduler.rung (.fixed offset)
          (looks t.start alarm t.settings.pollInterval (List.range' k m)) := by
  induction m generalizing t k session with
  | zero =>
    obtain ⟨free, hfree, hstands⟩ := h.resting
    rw [Nat.add_zero, advanceTo_of_resting hstands, ticks_of_le (Nat.le_max_left _ _)]
    exact ⟨rfl, (List.append_nil _).symm⟩
  | succ m ih =>
    obtain ⟨now, hclock, hnow⟩ := hroom 0 (Nat.succ_pos m)
    rw [Nat.add_zero] at hclock
    obtain ⟨-, d, scheduler, he, -⟩ := Scheduler.evaluate_fixed hday hnow
    obtain ⟨-, hroom', htol, hlook⟩ := Scheduler.due_of_evaluate he
    obtain ⟨report, session', hreport, hzone', rfl, state, standing, heq, hstands⟩ :=
      h.look hclock (hzone ▸ he) (hpace 1 (by omega))
    -- The rest of the run begins where the first tick has ended.
    have hlater := fun j => t.advanceTo_multiples t.settings.pollInterval k j
    generalize t.advanceTo ((k + 1) * t.settings.pollInterval) = t' at heq hstands hlater
    subst heq
    have hday' : session'.scheduler.tolerance + session'.scheduler.lookback ≤ Span.day := by
      rwa [htol, hlook]
    have hrest : ∀ j < m, ∃ now ∈ clock? t.start ((k + 1 + j) * t.settings.pollInterval),
        session'.scheduler.HasRoom (.fixed offset) ⟨alarm, now⟩ := by
      intro j hj
      rw [hroom', Nat.add_assoc, Nat.add_comm 1 j]
      exact hroom (j + 1) (Nat.succ_lt_succ hj)
    obtain ⟨hlength, hrung⟩ := ih hstands (hzone'.trans hzone) hday' hrest fun j hj =>
      (congrArg (·.standing.isResting) (hlater j)).trans (hpace (j + 1) (Nat.succ_le_succ hj))
    rw [hlater] at hlength hrung
    constructor
    · rw [hlength, List.length_cons]
      omega
    · rw [hrung, rung_report, hreport, List.range'_succ, looks_cons hclock, Scheduler.rung_cons he,
        List.append_assoc]

/-! ## The run of a session -/

/-- The instant of the tick numbered `k`. -/
theorem unixNanos_clock {start : Instant} {interval : Nat} (hleap : ¬ start.IsLeap)
    (hclock : clock? start (k * interval) = some now) :
    now.unixNanos = start.unixNanos + k * Span.ofMillis interval := by
  obtain ⟨-, hnow⟩ := (Instant.shift?_eq_some_iff hleap).mp hclock
  rw [hnow]
  unfold Span.ofMillis
  rw [Int.natCast_mul, Int.mul_assoc]

theorem mem_looks_range {start : Instant} {interval n : Nat} {l : Look} :
    l ∈ looks start alarm interval (List.range' 0 n) ↔
      ∃ k < n, ∃ now ∈ clock? start (k * interval), l = ⟨alarm, now⟩ := by
  unfold looks
  rw [← List.range_eq_range', List.mem_filterMap]
  simp only [List.mem_range, Option.map_eq_some_iff, Option.mem_def, eq_comm (a := l)]

theorem hasRoom_of_mem_looks {s : Scheduler} {start : Instant} {interval n : Nat}
    (hroom : ∀ k < n, ∃ now ∈ clock? start (k * interval),
      s.HasRoom (.fixed offset) ⟨alarm, now⟩) :
    ∀ l ∈ looks start alarm interval (List.range' 0 n), s.HasRoom (.fixed offset) l := by
  intro l hl
  obtain ⟨k, hk, now, hnow, rfl⟩ := mem_looks_range.mp hl
  obtain ⟨now', hnow', hroom'⟩ := hroom k hk
  obtain rfl : now' = now := Option.some.inj (hnow'.symm.trans hnow)
  exact hroom'

/-- A session that has just begun stands before its first tick. -/
theorem stands_begin {start : Instant} {state : Rehearsal}
    (htells : state.Tells session.settings.writeTimeout session.user alarm) :
    (begin start session state).Stands alarm 0 session := by
  refine ⟨⟨0, Nat.zero_le _, ?_⟩, ?_⟩
  · show Standing.resting 0 0 session = Standing.resting (0 * _) 0 session
    rw [Nat.zero_mul]
  · exact (htells.make 0 (.sound .playSilent)).meet _ _ _

/-- What rings in a run is what rings at the looks of its ticks. -/
theorem run_begin {user : String} {settings : Settings} {start : Instant} {state : Rehearsal}
    {n : Nat} (hday : settings.tolerance + settings.lookback ≤ Span.day)
    (htells : state.Tells settings.writeTimeout user alarm)
    (hroom : ∀ k < n, ∃ now ∈ clock? start (k * settings.pollInterval),
      (Scheduler.ofSettings settings).HasRoom (.fixed offset) ⟨alarm, now⟩)
    (hpace : (begin start (.new user (.fixed offset) settings) state).KeepsPace n) :
    ((begin start (.new user (.fixed offset) settings) state).advanceTo
        (n * settings.pollInterval)).reports.length = n ∧
      ((begin start (.new user (.fixed offset) settings) state).advanceTo
        (n * settings.pollInterval)).rung = (Scheduler.ofSettings settings).rung (.fixed offset)
          (looks start alarm settings.pollInterval (List.range' 0 n)) := by
  have hstands : (begin start (.new user (.fixed offset) settings) state).Stands alarm 0
      (.new user (.fixed offset) settings) := stands_begin htells
  have hrun := hstands.run (m := n) rfl hday
  simp only [Nat.zero_add] at hrun
  obtain ⟨hlength, hrung⟩ := hrun hroom hpace
  exact ⟨hlength.trans (Nat.zero_add n), hrung⟩

/-- At some tick before the one numbered `n` the occurrence is due. -/
theorem exists_due {s : Scheduler} {start i : Instant} {interval n : Nat}
    (hpoll : Span.ofMillis interval ≤ 2 * s.tolerance) (hlookback : s.tolerance < s.lookback)
    (hstart : ¬ start.IsLeap)
    (hroom : ∀ k < n, ∃ now ∈ clock? start (k * interval), s.HasRoom (.fixed offset) ⟨alarm, now⟩)
    (hi : alarm.RingsAt (.fixed offset) i) (hfirst : start.since i ≤ s.tolerance)
    (hlast : ∃ k < n, ∃ now ∈ clock? start (k * interval), s.tolerance ≤ now.since i) :
    ∃ k < n, ∃ now ∈ clock? start (k * interval), s.Due (.fixed offset) ⟨alarm, now⟩ i := by
  obtain ⟨n', hn', last, hclock, hlast⟩ := hlast
  have hlastLeap : ¬ last.IsLeap := ((Instant.shift?_eq_some_iff hstart).mp hclock).1
  rw [Instant.since_eq hlastLeap hi.not_isLeap, unixNanos_clock hstart hclock] at hlast
  rw [Instant.since_eq hstart hi.not_isLeap] at hfirst
  have hinterval : 0 ≤ Span.ofMillis interval := by
    unfold Span.ofMillis Span
    omega
  have hwidth : Span.ofMillis interval ≤
      i.unixNanos + s.tolerance - (i.unixNanos - s.tolerance) := by
    unfold Span at *
    omega
  have hbegin : start.unixNanos ≤ i.unixNanos + s.tolerance := by
    unfold Span at *
    omega
  have hend : i.unixNanos - s.tolerance ≤ start.unixNanos + n' * Span.ofMillis interval := by
    unfold Span at *
    omega
  obtain ⟨k, hk, hlower, hupper⟩ := exists_sample hwidth hbegin n' hend
  have hkn : k < n := Nat.lt_of_le_of_lt hk hn'
  obtain ⟨now, hnow, hleap, -⟩ := hroom k hkn
  rw [← unixNanos_clock hstart hnow] at hlower hupper
  refine ⟨k, hkn, now, hnow, hi, ?_, ?_⟩
  · exact (Instant.abs_since_le_iff hleap hi.not_isLeap).mpr ⟨hlower, hupper⟩
  · refine (Instant.since_lt_iff hleap hi.not_isLeap).mpr ?_
    dsimp only
    unfold Span at *
    omega

end Timeline

/-! ## The theorem -/

/-- In a zone with one offset, with a poll interval of at most twice the tolerance, a lookback
greater than the tolerance, and both of at most a day together : a session that is told the same
alarm at each tick, and ends each tick before the next is due, lets every occurrence ring exactly
once whose tolerance ends between the start of the session and its last tick, and lets nothing
ring that is not an occurrence within the tolerance of one of its ticks. How the requests to the
store of the wake-ups fare does not matter. -/
theorem no_occurrence_missed (offset : Int) (alarm : Alarm) (user : String) (settings : Settings)
    (start : Instant) (state : Rehearsal) (n : Nat)
    (hpoll : Span.ofMillis settings.pollInterval ≤ 2 * settings.tolerance)
    (hlookback : settings.tolerance < settings.lookback)
    (hday : settings.tolerance + settings.lookback ≤ Span.day) (hstart : ¬ start.IsLeap)
    (htells : state.Tells settings.writeTimeout user alarm)
    (hroom : ∀ k < n, ∃ now ∈ Timeline.clock? start (k * settings.pollInterval),
      (Scheduler.ofSettings settings).HasRoom (.fixed offset) ⟨alarm, now⟩)
    (hpace : (Timeline.begin start (.new user (.fixed offset) settings) state).KeepsPace n) :
    let run := (Timeline.begin start (.new user (.fixed offset) settings) state).advanceTo
      (n * settings.pollInterval)
    run.reports.length = n ∧
      (∀ i, alarm.RingsAt (.fixed offset) i → start.since i ≤ settings.tolerance →
        (∃ k < n, ∃ now ∈ Timeline.clock? start (k * settings.pollInterval),
          settings.tolerance ≤ now.since i) → run.rung.count i = 1) ∧
      ∀ i ∈ run.rung, alarm.RingsAt (.fixed offset) i ∧
        ∃ k < n, ∃ now ∈ Timeline.clock? start (k * settings.pollInterval),
          (now.since i).abs ≤ settings.tolerance := by
  intro run
  obtain ⟨hlength, hrung⟩ := Timeline.run_begin hday htells hroom hpace
  obtain ⟨hnodup, hmem⟩ := Scheduler.rung_fixed _ (Scheduler.ofSettings settings) hday
    (Timeline.hasRoom_of_mem_looks hroom)
  refine ⟨hlength, fun i hi hfirst hlast => ?_, fun i hi => ?_⟩
  · obtain ⟨k, hk, now, hnow, hdue⟩ :=
      Timeline.exists_due hpoll hlookback hstart hroom hi hfirst hlast
    have hrings : i ∈ run.rung := by
      rw [hrung, hmem]
      refine ⟨⟨_, Timeline.mem_looks_range.mpr ⟨k, hk, now, hnow, rfl⟩, hdue⟩, ?_⟩
      exact Handled.not_contains_empty i
    rw [hrung] at hrings ⊢
    rw [hnodup.count, if_pos hrings]
  · rw [hrung, hmem] at hi
    obtain ⟨⟨l, hl, hdue⟩, -⟩ := hi
    obtain ⟨k, hk, now, hnow, rfl⟩ := Timeline.mem_looks_range.mp hl
    exact ⟨hdue.1, k, hk, now, hnow, hdue.2.1⟩

/-- Midnight at 05:30 east, with a session that begins 25 seconds before it and ticks every five
seconds while the store of the wake-ups fails in one way after the other : it rings once. -/
theorem no_occurrence_missed_midnight :
    let midnight : Instant := ⟨1781116200, 0, by decide, by decide, by decide, by decide⟩
    let start : Instant := ⟨1781116175, 0, by decide, by decide, by decide, by decide⟩
    let world : World :=
      .new ⟨"config", ⟨.defaults, [⟨"ada", ⟨0, 0⟩⟩]⟩, none⟩ ⟨"wakeups", .empty, none⟩
    let outlook : Outlook := Outlook.clear.set .upsert
      [.fated 100 (.unwritten .isDirectory), .late 3000, .fated 0 (.givenUp .merged), .down "busy"]
    let run := (Timeline.begin start (.new "ada" (.fixed 19800) .defaults)
      ⟨world, outlook, []⟩).advanceTo (12 * Settings.defaults.pollInterval)
    run.reports.length = 12 ∧ run.rung.count midnight = 1 := by
  intro midnight start world outlook run
  have hroom : ∀ k < 12, ∃ now ∈ Timeline.clock? start (k * Settings.defaults.pollInterval),
      (Scheduler.ofSettings .defaults).HasRoom (.fixed 19800) ⟨⟨0, 0⟩, now⟩ := by
    decide +kernel
  have hpace : (Timeline.begin start (.new "ada" (.fixed 19800) .defaults)
      ⟨world, outlook, []⟩).KeepsPace 12 := by
    decide +kernel
  obtain ⟨hlength, hrings, -⟩ := no_occurrence_missed 19800 ⟨0, 0⟩ "ada" .defaults start
    ⟨world, outlook, []⟩ 12 (by decide) (by decide) (by decide) (by decide) (by decide) hroom hpace
  refine ⟨hlength, hrings midnight (by decide) (by decide) ⟨11, by decide, ?_⟩⟩
  decide +kernel

end Reveille
