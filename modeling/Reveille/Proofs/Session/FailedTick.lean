import Reveille.Proofs.Occurrence.DaySearch
import Reveille.Proofs.Session.Kept
import Reveille.Proofs.Session.TickReport

/-!
# Ticks that fail

A tick begins by trying again to save what is unsaved, with one request for each wake-up
(`Session.retry_takes`); the request after these is for the alarm. If that is not told, or the alarm
has no next occurrence, the tick ends there, so all it has changed is what the retry has changed :
wake-ups that were unsaved have been joined to the records, and need not be saved any more
(`Session.retry_retries`). In any other case it comes to a report, although the next occurrence is
looked for a second time once everything has been done (`Session.exists_nextTrigger`). So a tick
that fails has let nothing ring, and one that lets an occurrence ring does not fail, whatever the
stores do (`Session.fails_before_ringing`).
-/

namespace Reveille

namespace Activity

/-! ## How many requests are made -/

variable {α β : Type}

/-- The activity makes so many requests, whatever comes back. -/
def Takes : Nat → Activity α → Prop
  | 0, .done _ => True
  | n + 1, .ask _ next => ∀ x, (next x).Takes n
  | _, _ => False

theorem takes_pure {a : α} : (pure a : Activity α).Takes 0 := trivial

theorem takes_request (r : Request) : (request r).Takes 1 := fun _ => trivial

theorem Takes.bind {a : Activity α} {f : α → Activity β} {m n : Nat} (ha : a.Takes m)
    (hf : ∀ x, (f x).Takes n) : (a >>= f).Takes (m + n) := by
  induction a generalizing m with
  | done x =>
    cases m with
    | zero =>
      rw [Nat.zero_add]
      exact hf x
    | succ m => exact ha.elim
  | ask r next ih =>
    cases m with
    | zero => exact ha.elim
    | succ m =>
      rw [Nat.succ_add]
      exact fun x => ih x (ha x)

/-- The requests of what comes after so many requests meet the fates after so many. -/
theorem Takes.runWith_bind {a : Activity α} {f : α → Activity β} {n : Nat} (ha : a.Takes n)
    (fates : List Fate) (o : Watch) : (a >>= f).runWith fates o =
      (f (a.runWith fates o).1).runWith (fates.drop n) (a.runWith fates o).2 := by
  induction a generalizing n fates o with
  | done x =>
    cases n with
    | zero => rfl
    | succ n => exact ha.elim
  | ask r next ih =>
    cases n with
    | zero => exact ha.elim
    | succ n =>
      rw [← List.drop_tail]
      exact ih _ (ha _) fates.tail _

end Activity

open Activity

/-! ## Reads -/

namespace Fate

/-- Why a read that meets this fate comes to nothing, `limit` being how long it may take. -/
def readFault? (limit : Nat) : Fate → Option StoreFault
  | .answered => none
  | .unwritten _ => none
  | .down reason => some (.unavailable reason)
  | .givenUp _ => some (.timedOut limit)

theorem inTime_reply {α : Type} (limit : Nat) (fate : Fate) (value : α) :
    inTime limit (fate.reply value) =
      match fate.readFault? limit with
      | some fault => .error fault
      | none => .ok value := by
  cases fate <;> rfl

end Fate

/-! ## Alarms that are turned down -/

/-- A scheduler turns an alarm down exactly if that has no occurrence after the anchor, where the
anchor is in range. -/
theorem Scheduler.evaluate_eq_error_iff {s : Scheduler} {zone : Zone} {now anchor : Instant}
    {alarm : Option Alarm} {refusal : Refusal} (hanchor : now.shift? (-s.lookback) = some anchor)
    (hrange : (zone.localTime anchor).InRange) :
    s.evaluate zone now alarm = .error refusal ↔
      ∃ a, alarm = some a ∧ refusal = .noOccurrence a (zone.localTime anchor) ∧
        a.nextAfter zone anchor = .error refusal := by
  cases alarm with
  | none => simp [evaluate]
  | some a =>
    have hnext : s.nextTrigger a zone now = a.nextAfter zone anchor := by
      unfold nextTrigger
      rw [hanchor]
    have herror : a.nextAfter zone anchor = .error refusal →
        refusal = .noOccurrence a (zone.localTime anchor) :=
      fun h => ((Alarm.nextAfter_eq_error_iff hrange).mp h).1
    rw [evaluate_some, hnext]
    simp only [Option.some.injEq, exists_eq_left']
    rw [and_iff_right_of_imp herror]
    cases a.nextAfter zone anchor <;> simp [Except.map]

namespace Session

variable {s : Session} {o : Watch} {now : Instant}

/-! ## The retry -/

theorem save_takes (s : Session) (w : Wakeup) : (s.save w).Takes 1 := by
  refine (takes_request _).bind (n := 0) fun reply => ?_
  split <;> exact takes_pure

theorem saveAll_takes (s : Session) : ∀ ws : List Wakeup, (s.saveAll ws).Takes ws.length
  | [] => trivial
  | w :: ws => by
    unfold saveAll
    rw [List.length_cons, Nat.add_comm]
    exact (s.save_takes w).bind fun s' => s'.saveAll_takes ws

/-- The retry makes one request for each wake-up that is unsaved. -/
theorem retry_takes (s : Session) : s.retry.Takes s.unsaved.length :=
  saveAll_takes _ s.unsaved

/-- Wake-ups have been tried to be saved : some are `kept` for later, and some `joined` to the
records. An upsert that is given up may leave its wake-up to both. Nothing else has changed. -/
structure Retries (ws : List Wakeup) (s : Session) (o : Watch) (s' : Session) (o' : Watch)
    (kept joined : List Wakeup) : Prop where
  session : s' = s.keeping (s.unsaved ++ kept)
  watch : o' = { o with world := { o.world with wakeups := o'.world.wakeups } }
  records : o'.world.wakeups.records =
    joined.foldl (fun rs w => rs.merge s.user w) o.world.wakeups.records
  kept_sublist : kept.Sublist ws
  joined_sublist : joined.Sublist ws
  covered : ∀ w ∈ ws, w ∈ kept ∨ w ∈ joined

theorem save_retries (s : Session) (w : Wakeup) : (s.save w).Ensures Watch.Meets
    (fun s' o' => ∃ kept joined, Retries [w] s o s' o' kept joined) o := by
  unfold save
  rw [ensures_request_bind]
  rintro reply o' ⟨fate, hm⟩
  cases hm
  have hwatch : (o.meet fate (.upsert s.user w)).2 = { o with world := { o.world with
      wakeups := (o.meet fate (.upsert s.user w)).2.world.wakeups } } := by
    simp [Watch.meet, Request.notice?, World.answer]
  have hkept : ∀ joined : List Wakeup, joined.Sublist [w] →
      (World.upsert o.world.wakeups s.user w fate).2.records =
        joined.foldl (fun rs w => rs.merge s.user w) o.world.wakeups.records →
      ∃ kept joined, Retries [w] s o { s with unsaved := s.unsaved ++ [w] }
        (o.meet fate (.upsert s.user w)).2 kept joined := fun joined hsub hrecords =>
    ⟨[w], joined, rfl, hwatch, hrecords, List.Sublist.refl _, hsub, fun v hv => .inl hv⟩
  obtain hmerge | ⟨hsame, hreply⟩ := World.upsert_cases o.world.wakeups s.user w fate
  · split
    · refine ⟨[], [w], ?_, hwatch, hmerge, List.nil_sublist _, List.Sublist.refl _,
        fun v hv => .inr hv⟩
      rw [List.append_nil]
      rfl
    · exact hkept [w] (List.Sublist.refl _) hmerge
  · split
    · next stored heq => exact absurd heq (hreply stored)
    · exact hkept [] (List.nil_sublist _) hsame

theorem saveAll_retries (s : Session) (ws : List Wakeup) : (s.saveAll ws).Ensures Watch.Meets
    (fun s' o' => ∃ kept joined, Retries ws s o s' o' kept joined) o := by
  induction ws generalizing s o with
  | nil =>
    refine ⟨[], [], ?_, rfl, rfl, List.Sublist.refl _, List.Sublist.refl _, fun w hw => .inl hw⟩
    rw [List.append_nil]
    rfl
  | cons w ws ih =>
    unfold saveAll
    rw [ensures_bind]
    refine (s.save_retries w).mono ?_
    rintro s₁ o₁ ⟨kept₁, joined₁, h₁⟩
    refine (ih s₁).mono ?_
    rintro s₂ o₂ ⟨kept₂, joined₂, h₂⟩
    refine ⟨kept₁ ++ kept₂, joined₁ ++ joined₂, ?_, ?_, ?_, h₁.kept_sublist.append h₂.kept_sublist,
      h₁.joined_sublist.append h₂.joined_sublist, fun v hv => ?_⟩
    · rw [h₂.session, h₁.session, ← List.append_assoc]
      rfl
    · rw [h₂.watch, h₁.watch]
    · have huser : s₁.user = s.user := by rw [h₁.session]; rfl
      rw [List.foldl_append, ← h₁.records, h₂.records, huser]
    · rcases List.mem_cons.mp hv with rfl | hv
      · exact (h₁.covered v (List.mem_singleton_self v)).imp (List.mem_append_left _)
          (List.mem_append_left _)
      · exact (h₂.covered v hv).imp (List.mem_append_right _) (List.mem_append_right _)

theorem retry_retries (s : Session) : s.retry.Ensures Watch.Meets
    (fun s' o' => ∃ kept joined, Retries s.unsaved (s.keeping []) o s' o' kept joined) o :=
  saveAll_retries (s.keeping []) s.unsaved

/-! ## The tick -/

/-- Why a tick is not told the alarm : the request for it comes after those of the retry. -/
def unread? (s : Session) (fates : List Fate) : Option StoreFault :=
  ((fates.drop s.unsaved.length).headD .answered).readFault? s.settings.writeTimeout

/-- A tick tries again to save what is unsaved. If it is told the alarm then, it follows it. -/
theorem tick_runWith (s : Session) (now : Instant) (fates : List Fate) (o : Watch) :
    (s.tick now).runWith fates o =
      match s.unread? fates with
      | some fault => ((.error (.store fault), (s.retry.runWith fates o).1),
          (s.retry.runWith fates o).2)
      | none => ((s.retry.runWith fates o).1.follow (o.world.alarms.alarmOf? s.user) now).runWith
          (fates.drop s.unsaved.length).tail (s.retry.runWith fates o).2 := by
  obtain ⟨kept, joined, h⟩ := (s.retry_retries (o := o)).runWith fates
  unfold tick unread?
  rw [s.retry_takes.runWith_bind]
  generalize s.retry.runWith fates o = retry at *
  obtain ⟨s₁, o₁⟩ := retry
  obtain rfl : s₁ = s.keeping kept := h.session
  have halarms : o₁.world.alarms = o.world.alarms := by
    have hworld := congrArg (fun o' : Watch => o'.world.alarms) h.watch
    exact hworld
  rw [runWith_request_bind]
  generalize (fates.drop s.unsaved.length).headD .answered = fate
  have hmeet : o₁.meet fate (.alarmOf (s.keeping kept).user) =
      (fate.reply (o.world.alarms.alarmOf? s.user), o₁) := by
    rw [← halarms]
    simp [Watch.meet, Request.notice?, World.answer, keeping]
  have hsettings : (s.keeping kept).settings = s.settings := rfl
  rw [hmeet]
  dsimp only
  rw [Fate.inTime_reply, hsettings]
  cases fate.readFault? s.settings.writeTimeout <;> rfl

/-- An alarm that is turned down ends the tick. -/
theorem follow_runWith_of_error {alarm : Option Alarm} {refusal : Refusal}
    (h : s.scheduler.evaluate s.zone now alarm = .error refusal) (fates : List Fate) (o : Watch) :
    (s.follow alarm now).runWith fates o = ((.error (.refused refusal), s), o) := by
  unfold follow
  rw [h]
  rfl

/-- A decision is reported. -/
theorem follow_runWith_of_ok {alarm : Option Alarm} {d : Decision} {scheduler : Scheduler}
    (h : s.scheduler.evaluate s.zone now alarm = .ok (d, scheduler)) (fates : List Fate)
    (o : Watch) : ∃ phase n s' o',
      (s.follow alarm now).runWith fates o = ((.ok ⟨d, phase, n⟩, s'), o') := by
  have hend := Ensures.runWith (s.follow_ensures (o := o) alarm now) fates
  generalize (s.follow alarm now).runWith fates o = run at *
  obtain ⟨res, o'⟩ := run
  cases hend with
  | refused refusal ws h' =>
    rw [h] at h'
    cases h'
  | decided d' scheduler' phase ws h' =>
    rw [h] at h'
    cases h'
    exact ⟨phase, ws.length, _, o', rfl⟩

/-- How a tick ends : not told the alarm, or with the alarm turned down, it has done nothing after
the retry; or else it comes to a decision, and reports it. -/
inductive Ended (s : Session) (now : Instant) (fates : List Fate) (o : Watch) :
    (Except SessionFault TickReport × Session) × Watch → Prop where
  | unread (fault : StoreFault) (h : s.unread? fates = some fault) : Ended s now fates o
      ((.error (.store fault), (s.retry.runWith fates o).1), (s.retry.runWith fates o).2)
  | refused (refusal : Refusal) (hread : s.unread? fates = none)
      (h : s.scheduler.evaluate s.zone now (o.world.alarms.alarmOf? s.user) = .error refusal) :
      Ended s now fates o
        ((.error (.refused refusal), (s.retry.runWith fates o).1), (s.retry.runWith fates o).2)
  | decided (d : Decision) (scheduler : Scheduler) (phase : Phase) (n : Nat) (s' : Session)
      (o' : Watch) (hread : s.unread? fates = none)
      (h : s.scheduler.evaluate s.zone now (o.world.alarms.alarmOf? s.user) = .ok (d, scheduler)) :
      Ended s now fates o ((.ok ⟨d, phase, n⟩, s'), o')

theorem tick_ended (s : Session) (now : Instant) (fates : List Fate) (o : Watch) :
    Ended s now fates o ((s.tick now).runWith fates o) := by
  obtain ⟨kept, joined, hretry⟩ := (s.retry_retries (o := o)).runWith fates
  -- The retry leaves the scheduler as it is.
  have hsame : (s.retry.runWith fates o).1.scheduler.evaluate (s.retry.runWith fates o).1.zone now
      (o.world.alarms.alarmOf? s.user) =
        s.scheduler.evaluate s.zone now (o.world.alarms.alarmOf? s.user) := by
    rw [hretry.session]
    rfl
  rw [tick_runWith]
  cases hread : s.unread? fates with
  | some fault => exact .unread fault hread
  | none =>
    dsimp only
    cases hd : s.scheduler.evaluate s.zone now (o.world.alarms.alarmOf? s.user) with
    | error refusal =>
      rw [follow_runWith_of_error (hsame.trans hd)]
      exact .refused refusal hread hd
    | ok result =>
      obtain ⟨d, scheduler⟩ := result
      obtain ⟨phase, n, s', o', hreport⟩ := follow_runWith_of_ok (hsame.trans hd)
        (fates.drop s.unsaved.length).tail (s.retry.runWith fates o).2
      rw [hreport]
      exact .decided d scheduler phase n s' o' hread hd

/-! ## The theorem -/

/-- Of a tick of a session in any state, whatever becomes of its requests, where the anchor of its
search is in range : it fails exactly if it is not told the alarm, or an alarm is set that has no
occurrence after the anchor. Then it has done nothing but to try again to save what was unsaved, and
leaves the scheduler, the occurrence that fired last, the player, the announcements and the phase on
show as they were. A tick that comes to a decision reports it. -/
theorem fails_before_ringing (s : Session) (now anchor : Instant) (world : World)
    (fates : List Fate) (hanchor : now.shift? (-s.scheduler.lookback) = some anchor)
    (hrange : (s.zone.localTime anchor).InRange) :
    let alarm := world.alarms.alarmOf? s.user
    let tick := (s.tick now).runWith fates ⟨world, []⟩
    (∀ fault, tick.1.1 = .error fault ↔
        (∃ unread, s.unread? fates = some unread ∧ fault = .store unread) ∨
        s.unread? fates = none ∧ ∃ a, alarm = some a ∧
          a.nextAfter s.zone anchor = .error (.noOccurrence a (s.zone.localTime anchor)) ∧
          fault = .refused (.noOccurrence a (s.zone.localTime anchor))) ∧
      (∀ fault, tick.1.1 = .error fault →
        (tick.1.2, tick.2) = s.retry.runWith fates ⟨world, []⟩ ∧
        ∃ kept joined, Retries s.unsaved (s.keeping []) ⟨world, []⟩ tick.1.2 tick.2 kept joined) ∧
      ∀ d scheduler, s.unread? fates = none →
        s.scheduler.evaluate s.zone now alarm = .ok (d, scheduler) →
          ∃ phase n, tick.1.1 = .ok ⟨d, phase, n⟩ := by
  intro alarm tick
  have hretries := (s.retry_retries (o := ⟨world, []⟩)).runWith fates
  have hrefused : ∀ refusal, s.scheduler.evaluate s.zone now alarm = .error refusal ↔ _ :=
    fun refusal => Scheduler.evaluate_eq_error_iff hanchor hrange
  have hended : Ended s now fates ⟨world, []⟩ tick := s.tick_ended now fates ⟨world, []⟩
  clear_value tick
  cases hended with
  | unread fault h =>
    refine ⟨fun fault' => ?_, fun _ _ => ⟨rfl, hretries⟩, fun d scheduler hread => ?_⟩
    · simp [h, eq_comm]
    · cases h.symm.trans hread
  | refused refusal hread h =>
    refine ⟨fun fault => ?_, fun _ _ => ⟨rfl, hretries⟩, fun d scheduler _ hd => ?_⟩
    · obtain ⟨a, ha, rfl, hnext⟩ := (hrefused refusal).mp h
      simp [hread, ha, hnext, eq_comm]
    · cases h.symm.trans hd
  | decided d scheduler phase n s' o' hread h =>
    refine ⟨fun fault => ?_, ?_, fun d' scheduler' _ hd => ?_⟩
    · constructor
      · rintro ⟨⟩
      · rintro (⟨unread, hunread, -⟩ | ⟨-, a, ha, hnext, -⟩)
        · cases hread.symm.trans hunread
        · cases h.symm.trans ((hrefused _).mpr ⟨a, ha, rfl, hnext⟩)
    · rintro _ ⟨⟩
    · cases h.symm.trans hd
      exact ⟨phase, n, rfl⟩

/-- At eight o'clock, which is to ring, a wake-up of the day before is saved at last, and then the
alarm cannot be read : the tick fails, and eight o'clock has not fired. -/
theorem fails_before_ringing_at_eight :
    let eight : Instant := ⟨1781078400, 0, by decide, by decide, by decide, by decide⟩
    let yesterday : Instant := ⟨1780992000, 0, by decide, by decide, by decide, by decide⟩
    let world : World :=
      .new ⟨"config", ⟨.defaults, [⟨"ada", ⟨8, 0⟩⟩]⟩, none⟩ ⟨"wakeups", .empty, none⟩
    let s : Session := { Session.new "ada" (.fixed 0) .defaults with
      unsaved := [.pending yesterday] }
    let tick := (s.tick eight).runWith [.answered, .down "busy"] ⟨world, []⟩
    tick.1.1 = .error (.store (.unavailable "busy")) ∧ tick.1.2 = { s with unsaved := [] } ∧
      tick.2.world.fired = none ∧
      tick.2.world.wakeups.latest? "ada" = some (.pending yesterday) := by
  intro eight yesterday world s tick
  let anchor : Instant := ⟨1781078340, 0, by decide, by decide, by decide, by decide⟩
  have hunread : s.unread? [.answered, .down "busy"] = some (.unavailable "busy") := rfl
  obtain ⟨hfails, hretry, -⟩ := fails_before_ringing s eight anchor world [.answered, .down "busy"]
    (by decide +kernel) (by decide +kernel)
  have herror : tick.1.1 = .error (.store (.unavailable "busy")) :=
    (hfails _).mpr (.inl ⟨_, hunread, rfl⟩)
  have hrun : (tick.1.2, tick.2) = s.retry.runWith [.answered, .down "busy"] ⟨world, []⟩ :=
    (hretry _ herror).1
  obtain ⟨hsession, hwatch⟩ := Prod.mk.inj hrun
  rw [hsession, hwatch]
  exact ⟨herror, by decide +kernel, by decide +kernel, by decide +kernel⟩

end Session

end Reveille
