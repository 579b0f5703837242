import Mathlib.Control.Monad.Basic
import Reveille.CommandLine.Report
import Reveille.Proofs.Occurrence.DaySearch
import Reveille.Proofs.Scheduler.NeverBlind
import Reveille.Proofs.Session.TickReport

/-!
# The report and the running session

The report of the next trigger searches from the present, a session from the lookback before it, so
that an occurrence which has just passed is still waited for. Both take the phase from the latest
wake-up first, and from the next occurrence only where that has nothing to show
(`AckPolicy.phase_cases`). So in a zone with one offset they agree unless an occurrence lies within
the lookback : then the session goes on to show it as set, and the report shows the one after it
(`Report.agrees_with_tick`, `Report.differs_within_lookback`).
-/

namespace Reveille

open Activity

/-! ## Phases -/

/-- The latest wake-up determines the phase, or the next occurrence is shown as set. -/
theorem AckPolicy.phase_cases (policy : AckPolicy) (latest : Option Wakeup) (ringing : Bool)
    (now : Instant) : (∀ next, policy.phase (some next) latest ringing now = .alarmSet next) ∨
      ∃ phase, (∀ next, policy.phase (some next) latest ringing now = phase) ∧
        ∀ next, phase ≠ .alarmSet next := by
  unfold phase
  cases latest with
  | none => exact .inl fun next => rfl
  | some w =>
    dsimp only
    by_cases hactive : policy.IsActive w ringing now
    · exact .inr ⟨_, fun next => if_pos hactive, by rintro next ⟨⟩⟩
    by_cases hfresh : IsFresh w now
    · refine .inr ⟨.acknowledged w.alarmInstant, fun next => ?_, by rintro next ⟨⟩⟩
      rw [if_neg hactive, if_pos ⟨rfl, hfresh⟩]
    · refine .inl fun next => ?_
      rw [if_neg hactive, if_neg fun h => hfresh h.2]
      rfl

/-- Another next occurrence changes the phase where that is shown as set. -/
theorem AckPolicy.phase_of_other_next (policy : AckPolicy) (latest : Option Wakeup)
    (ringing : Bool) (now next other : Instant) : policy.phase (some other) latest ringing now =
      if policy.phase (some next) latest ringing now = .alarmSet next then .alarmSet other
      else policy.phase (some next) latest ringing now := by
  rcases policy.phase_cases latest ringing now with hidle | ⟨phase, hphase, hne⟩
  · rw [hidle, hidle, if_pos rfl]
  · rw [hphase, hphase, if_neg (hne next)]

/-! ## Ticks whose requests are answered -/

/-- A decision leaves a scheduler waiting for what it waited for. -/
theorem Scheduler.nextTrigger_decide (s : Scheduler) (i now : Instant) (alarm : Alarm)
    (zone : Zone) (later : Instant) :
    (s.decide i now).2.nextTrigger alarm zone later = s.nextTrigger alarm zone later := by
  rcases s.decide_cases i now with ⟨-, h⟩ | ⟨-, -, h⟩ | ⟨-, -, h⟩ <;> rw [h]
  exact nextTrigger_handling s i

namespace Session

variable {s : Session} {alarm : Option Alarm} {now : Instant} {o : Watch}

/-- The phase of a session that is told everything. -/
def phaseIn (s : Session) (next : Option Instant) (now : Instant) (world : World) : Phase :=
  (AckPolicy.ofSettings s.settings).phase next
    (Wakeup.newest (world.wakeups.latest? s.user) s.unsaved.getLast?) world.player.isRinging now

/-- With nothing to save and nothing to be heard, the latest wake-up is that of the store. -/
theorem phaseIn_of_saved {world : World} (hunsaved : s.unsaved = [])
    (hsilent : world.player.isRinging = false) (next : Option Instant) :
    s.phaseIn next now world = (AckPolicy.ofSettings s.settings).phase next
      (world.wakeups.latest? s.user) false now := by
  unfold phaseIn
  rw [hunsaved, hsilent, List.getLast?_nil]
  cases world.wakeups.latest? s.user <;> rfl

theorem findPhase_answered (s : Session) (next : Option Instant) (now : Instant) (o : Watch) :
    (s.findPhase next now).Ensures Watch.Answers (fun phase _ => phase = s.phaseIn next now o.world)
      o := by
  unfold findPhase
  rw [ensures_request_bind]
  intro x o₁ h₁
  obtain rfl := Watch.eq_of_question h₁.meets trivial
  obtain rfl : some (.ok (o.world.wakeups.latest? s.user)) = x := congrArg Prod.fst h₁.world
  rw [ensures_request_bind]
  intro ringing o₂ h₂
  obtain rfl : o.world.player.isRinging = ringing := congrArg Prod.fst h₂.world
  rfl

theorem refresh_answered {next : Option Instant} (h : s.nextTrigger alarm now = .ok next) :
    (s.refresh alarm now).Ensures Watch.Answers
      (fun res _ => res = .ok (s.phaseIn next now o.world)) o := by
  unfold refresh
  rw [h]
  dsimp only
  rw [ensures_bind]
  refine (s.findPhase_answered next now o).mono ?_
  rintro phase o₁ rfl
  rw [ensures_request_bind]
  exact fun _ _ _ => rfl

theorem retry_of_saved (h : s.unsaved = []) : s.retry = pure s := by
  obtain ⟨user, zone, settings, scheduler, unsaved⟩ := s
  obtain rfl : unsaved = [] := h
  rfl

/-- A tick that is told everything fails where no occurrence is found to wait for. -/
theorem tick_refused {alarm : Alarm} {refusal : Refusal} (hunsaved : s.unsaved = [])
    (halarm : o.world.alarms.alarmOf? s.user = some alarm)
    (hnext : s.scheduler.nextTrigger alarm s.zone now = .error refusal) :
    (s.tick now).Ensures Watch.Answers (fun res _ => res.1 = .error (.refused refusal)) o := by
  have hd : s.scheduler.evaluate s.zone now (some alarm) = .error refusal := by
    rw [Scheduler.evaluate_some, hnext]
    rfl
  unfold tick
  rw [retry_of_saved hunsaved, ensures_bind, ensures_pure, ensures_request_bind]
  intro reply o₁ h₁
  obtain rfl : some (.ok (some alarm)) = reply := halarm ▸ congrArg Prod.fst h₁.world
  dsimp only [inTime]
  unfold follow
  rw [hd]
  rfl

/-- A tick that is told everything reports the decision on the next occurrence. If there is nothing
to save and nothing rings, it finds the phase from that occurrence. -/
theorem tick_answered {alarm : Alarm} {next : Instant} (hunsaved : s.unsaved = [])
    (halarm : o.world.alarms.alarmOf? s.user = some alarm)
    (hnext : s.scheduler.nextTrigger alarm s.zone now = .ok next) :
    (s.tick now).Ensures Watch.Answers (fun res _ => ∃ phase n,
      res.1 = .ok ⟨(s.scheduler.decide next now).1, phase, n⟩ ∧
        ((s.scheduler.decide next now).1.ringing? = none →
          phase = s.phaseIn (some next) now o.world)) o := by
  have hd := Scheduler.evaluate_of_nextTrigger hnext
  have hagain := (s.scheduler.nextTrigger_decide next now alarm s.zone now).trans hnext
  unfold tick
  rw [retry_of_saved hunsaved, ensures_bind, ensures_pure, ensures_request_bind]
  intro reply o₁ h₁
  obtain rfl := Watch.eq_of_question h₁.meets trivial
  obtain rfl : some (.ok (some alarm)) = reply := halarm ▸ congrArg Prod.fst h₁.world
  dsimp only [inTime]
  unfold follow
  rw [hd]
  generalize s.scheduler.decide next now = result at *
  obtain ⟨d, scheduler⟩ := result
  dsimp only at *
  cases hringing : d.ringing? with
  | some trigger =>
    rw [ensures_bind]
    refine (act_ensures _ d).mono ?_
    rintro s' o₁ ⟨ws, rfl⟩
    obtain ⟨next, hnext⟩ := exists_nextTrigger hd ws
    rw [ensures_bind]
    refine (refresh_ensures hnext).mono ?_
    rintro res o₂ ⟨phase, rfl⟩
    exact ⟨phase, _, rfl, by rintro ⟨⟩⟩
  | none =>
    have hwaits : ({ s with scheduler } : Session).nextTrigger (some alarm) now =
        .ok (some next) :=
      congrArg (Except.map some) hagain
    unfold act
    rw [hringing, ensures_bind, ensures_pure, ensures_bind]
    refine (refresh_answered hwaits).mono ?_
    rintro res o₂ rfl
    exact ⟨_, _, rfl, fun _ => rfl⟩

end Session

/-! ## The theorem -/

namespace Report

variable {settings : Settings} {zone : Zone} {now trigger : Instant} {alarm : Alarm}

theorem find_of_nextAfter (h : alarm.nextAfter zone now = .ok trigger) (latest : Option Wakeup) :
    find settings zone now alarm (.ok latest) =
      .ok (trigger, (AckPolicy.ofSettings settings).phase (some trigger) latest false now) := by
  unfold find
  rw [h]
  rfl

theorem eq_phase_of_find {latest : Option Wakeup} {phase : Phase}
    (h : find settings zone now alarm (.ok latest) = .ok (trigger, phase)) :
    alarm.nextAfter zone now = .ok trigger ∧
      (AckPolicy.ofSettings settings).phase (some trigger) latest false now = phase := by
  cases hnext : alarm.nextAfter zone now with
  | error refusal =>
    unfold find at h
    rw [hnext] at h
    cases h
  | ok i =>
    rw [find_of_nextAfter hnext] at h
    cases h
    exact ⟨rfl, rfl⟩

/-- An occurrence that a scheduler waits for in a zone with one offset is the first one after the
present less the lookback, so it is the one after the present as well, unless one lies between. -/
theorem waited_eq_iff {s : Scheduler} {offset : Int} {waited : Instant} (hlookback : 0 ≤ s.lookback)
    (htrigger : alarm.nextAfter (.fixed offset) now = .ok trigger)
    (hwaited : s.nextTrigger alarm (.fixed offset) now = .ok waited) :
    ∃ anchor, now.shift? (-s.lookback) = some anchor ∧
      alarm.IsNext (.fixed offset) anchor waited ∧
      (waited = trigger ↔ ∀ i, alarm.RingsAt (.fixed offset) i → anchor < i → now < i) := by
  obtain ⟨anchor, hanchor, hfound⟩ : ∃ anchor, now.shift? (-s.lookback) = some anchor ∧
      alarm.nextAfter (.fixed offset) anchor = .ok waited := by
    unfold Scheduler.nextTrigger at hwaited
    split at hwaited
    · next anchor hanchor => exact ⟨anchor, hanchor, hwaited⟩
    · cases hwaited
  have hback : anchor ≤ now :=
    Instant.le_of_shift? hanchor (Int.neg_nonpos_of_nonneg hlookback)
  have hnext := Alarm.isNext_of_nextAfter htrigger
  have hwaits := Alarm.isNext_of_nextAfter hfound
  refine ⟨anchor, hanchor, hwaits, ?_, ?_⟩
  · rintro rfl i hi hafter
    exact Instant.lt_of_lt_of_le hnext.after (hwaits.first i hi hafter)
  · intro hnone
    have hlater : now < waited := hnone waited hwaits.ringsAt hwaits.after
    have hfirst : alarm.IsNext (.fixed offset) now waited :=
      ⟨hwaits.ringsAt, hlater, fun i hi h => hwaits.first i hi (Instant.lt_of_le_of_lt hback h)⟩
    exact hfirst.eq hnext

/-- In a zone with one offset, whatever the settings, the occurrences that are handled and the
stores : the report, and a tick of a session with these settings that has nothing to save, hears
nothing and is told everything. The report comes to a phase if the day ahead is in range, the tick
if the day after the anchor of its search is. The report looks for the first occurrence after the
present, the tick for the first one after the anchor; they are the same exactly if no occurrence
lies between. If nothing rings, the tick reports the phase of the report, with the occurrence that
it waits for in place of the trigger where that is shown as set. -/
theorem agrees_with_tick (user : String) (offset : Int) (settings : Settings) (handled : Handled)
    (world : World) (alarm : Alarm) (now : Instant)
    (halarm : world.alarms.alarmOf? user = some alarm)
    (hsilent : world.player.isRinging = false) :
    let s : Session :=
      ⟨user, .fixed offset, settings, { Scheduler.ofSettings settings with handled }, []⟩
    let found := find settings (.fixed offset) now alarm (.ok (world.wakeups.latest? user))
    let ticked := ((s.tick now).runWith [] ⟨world, []⟩).1.1
    (¬ now.IsLeap → Alarm.DayInRange (.fixed offset) now → ∃ res, found = .ok res) ∧
      (s.scheduler.HasRoom (.fixed offset) ⟨alarm, now⟩ → ∃ report, ticked = .ok report) ∧
      ∀ trigger phase report, found = .ok (trigger, phase) → ticked = .ok report →
        alarm.IsNext (.fixed offset) now trigger ∧
        ∃ anchor waited, now.shift? (-settings.lookback) = some anchor ∧
          alarm.IsNext (.fixed offset) anchor waited ∧
          (waited = trigger ↔ ∀ i, alarm.RingsAt (.fixed offset) i → anchor < i → now < i) ∧
          (report.decision.ringing? = none →
            report.phase = if phase = .alarmSet trigger then .alarmSet waited else phase) := by
  intro s found ticked
  refine ⟨fun hleap hroom => ?_, fun hroom => ?_, fun trigger phase report hfound hticked => ?_⟩
  · obtain ⟨trigger, htrigger, -⟩ := alarm.nextAfter_fixed hleap hroom
    exact ⟨_, find_of_nextAfter htrigger _⟩
  · obtain ⟨waited, hwaited, -⟩ := Scheduler.nextTrigger_fixed hroom
    have htick : (s.tick now).Ensures Watch.Answers _ ⟨world, []⟩ :=
      Session.tick_answered rfl halarm hwaited
    obtain ⟨_, _, hreport, -⟩ := htick.runAnswered
    exact ⟨_, hreport⟩
  obtain ⟨htrigger, rfl⟩ := eq_phase_of_find hfound
  cases hnext : s.scheduler.nextTrigger alarm (.fixed offset) now with
  | error refusal =>
    have htick : (s.tick now).Ensures Watch.Answers _ ⟨world, []⟩ :=
      Session.tick_refused rfl halarm hnext
    cases htick.runAnswered.symm.trans hticked
  | ok waited =>
    obtain ⟨anchor, hanchor, hwaits, heq⟩ := waited_eq_iff settings.lookback_nonneg htrigger hnext
    refine ⟨Alarm.isNext_of_nextAfter htrigger, anchor, waited, hanchor, hwaits, heq, ?_⟩
    have htick : (s.tick now).Ensures Watch.Answers _ ⟨world, []⟩ :=
      Session.tick_answered rfl halarm hnext
    obtain ⟨_, _, hreport, hphase⟩ := htick.runAnswered
    obtain rfl := Except.ok.inj (hreport.symm.trans hticked)
    intro hquiet
    rw [hphase hquiet, Session.phaseIn_of_saved rfl hsilent]
    exact AckPolicy.phase_of_other_next _ _ _ now trigger waited

/-- Forty-five seconds past eight, eight o'clock has rung and is not acknowledged : the report and
the session show it as active, though one has tomorrow ahead and the other still waits for today. -/
theorem agrees_with_tick_at_eight :
    let eight : Instant := ⟨1781078400, 0, by decide, by decide, by decide, by decide⟩
    let now : Instant := ⟨1781078445, 0, by decide, by decide, by decide, by decide⟩
    let tomorrow : Instant := ⟨1781164800, 0, by decide, by decide, by decide, by decide⟩
    let world : World := .new ⟨"config", ⟨.defaults, [⟨"ada", ⟨8, 0⟩⟩]⟩, none⟩
      ⟨"wakeups", .ofList [⟨"ada", .pending eight⟩], none⟩
    let s : Session := ⟨"ada", .fixed 0, .defaults,
      { Scheduler.ofSettings .defaults with handled := Handled.empty.insert eight }, []⟩
    ∃ report, find .defaults (.fixed 0) now ⟨8, 0⟩ (.ok (world.wakeups.latest? "ada")) =
        .ok (tomorrow, .active eight) ∧
      ((s.tick now).runWith [] ⟨world, []⟩).1.1 = .ok report ∧
      report.decision = .notImminent eight ∧ report.phase = .active eight := by
  intro eight now tomorrow world s
  have hreport : find .defaults (.fixed 0) now ⟨8, 0⟩ (.ok (world.wakeups.latest? "ada")) =
      .ok (tomorrow, .active eight) := by
    decide +kernel
  have hdecision : ((s.tick now).runWith [] ⟨world, []⟩).1.1.map TickReport.decision =
      .ok (.notImminent eight) := by
    decide +kernel
  obtain ⟨-, hreports, hagrees⟩ := agrees_with_tick "ada" 0 .defaults (Handled.empty.insert eight)
    world ⟨8, 0⟩ now (by decide +kernel) (by decide +kernel)
  obtain ⟨report, htick⟩ := hreports (by decide +kernel)
  obtain ⟨-, _, _, -, -, -, hphase⟩ := hagrees tomorrow (.active eight) report hreport htick
  have hwaits : report.decision = .notImminent eight := by
    rw [htick] at hdecision
    exact Except.ok.inj hdecision
  refine ⟨report, hreport, htick, hwaits, ?_⟩
  rw [hphase (by rw [hwaits]; rfl), if_neg (by rintro ⟨⟩)]

/-- With the default settings, forty-five seconds past eight o'clock that nobody has been woken for,
the report shows tomorrow as set, and a tick that does not ring goes on to show today. -/
theorem differs_within_lookback :
    let eight : Instant := ⟨1781078400, 0, by decide, by decide, by decide, by decide⟩
    let now : Instant := ⟨1781078445, 0, by decide, by decide, by decide, by decide⟩
    let tomorrow : Instant := ⟨1781164800, 0, by decide, by decide, by decide, by decide⟩
    let world : World :=
      .new ⟨"config", ⟨.defaults, [⟨"ada", ⟨8, 0⟩⟩]⟩, none⟩ ⟨"wakeups", .empty, none⟩
    let s := Session.new "ada" (.fixed 0) .defaults
    Settings.defaults.Accepted ∧ world.player.isRinging = false ∧
      find .defaults (.fixed 0) now ⟨8, 0⟩ (.ok (world.wakeups.latest? "ada")) =
        .ok (tomorrow, .alarmSet tomorrow) ∧
      ((s.tick now).runWith [] ⟨world, []⟩).1.1 =
        .ok ⟨.notImminent eight, .alarmSet eight, 0⟩ ∧
      Phase.alarmSet eight ≠ .alarmSet tomorrow := by
  intro eight now tomorrow world s
  have haccepted : Settings.defaults.Accepted :=
    Settings.accepted_of_parse "\x7b\"version\":1\x7d" (by decide +kernel)
  exact ⟨haccepted, by decide +kernel, by decide +kernel, by decide +kernel, by decide +kernel⟩

end Report

end Reveille
