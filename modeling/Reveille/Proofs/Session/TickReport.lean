import Reveille.Session.Tick
import Reveille.Proofs.Scheduler.Decision
import Reveille.Proofs.Session.Ensures

/-!
# What a tick reports

A tick changes nothing of a session but its scheduler and what is unsaved, whatever comes back
from its requests. It fails only if the alarm cannot be read, or if the scheduler turns the
alarm down; then the scheduler is as before (`Session.Ticked`, `Session.tick_ensures`). Once the
scheduler has decided, the tick reports that decision : the phase is found from the same next
occurrence, so a tick that has let an occurrence ring does not fail afterwards.
-/

namespace Reveille

open Activity

/-- The occurrence that a tick reports as ringing. -/
def reported? : Except SessionFault TickReport → Option Instant
  | .ok report => report.decision.ringing?
  | .error _ => none

namespace Session

variable {σ : Type} {meets : Meeting σ} {o : σ} {s : Session} {alarm : Option Alarm}
  {now : Instant}

/-- The session with these wake-ups still to be saved. -/
def keeping (s : Session) (ws : List Wakeup) : Session := { s with unsaved := ws }

/-! ## The parts of a tick -/

theorem save_ensures (s : Session) (w : Wakeup) :
    (s.save w).Ensures meets (fun s' _ => ∃ ws, s' = s.keeping ws) o := by
  unfold save
  rw [ensures_request_bind]
  intro x o' _
  split
  · exact ⟨s.unsaved, rfl⟩
  · exact ⟨s.unsaved ++ [w], rfl⟩

theorem saveAll_ensures (s : Session) (ws : List Wakeup) :
    (s.saveAll ws).Ensures meets (fun s' _ => ∃ vs, s' = s.keeping vs) o := by
  induction ws generalizing s o with
  | nil => exact ⟨s.unsaved, rfl⟩
  | cons w ws ih =>
    unfold saveAll
    rw [ensures_bind]
    refine (s.save_ensures w).mono ?_
    rintro s' o' ⟨us, rfl⟩
    refine (ih (s.keeping us)).mono ?_
    rintro s'' o'' ⟨vs, rfl⟩
    exact ⟨vs, rfl⟩

theorem retry_ensures (s : Session) :
    s.retry.Ensures meets (fun s' _ => ∃ ws, s' = s.keeping ws) o :=
  (saveAll_ensures (s.keeping []) s.unsaved).mono fun _ _ ⟨ws, h⟩ => ⟨ws, h⟩

theorem ring_ensures (s : Session) (trigger : Instant) :
    (s.ring trigger).Ensures meets (fun s' _ => ∃ ws, s' = s.keeping ws) o := by
  unfold ring
  rw [ensures_request_bind]
  intro _ o₁ _
  rw [ensures_bind]
  refine (s.save_ensures _).mono fun s' o₂ h => ?_
  rw [ensures_request_bind]
  intro _ o₃ _
  rw [ensures_request_bind]
  intro _ o₄ _
  rw [ensures_request_bind]
  exact fun _ _ _ => h

theorem act_ensures (s : Session) (d : Decision) :
    (s.act d).Ensures meets (fun s' _ => ∃ ws, s' = s.keeping ws) o := by
  unfold act
  split
  · exact s.ring_ensures _
  · exact ⟨s.unsaved, rfl⟩

/-- The phase is found if the next occurrence is. -/
theorem refresh_ensures {next : Option Instant} (h : s.nextTrigger alarm now = .ok next) :
    (s.refresh alarm now).Ensures meets (fun res _ => ∃ phase, res = .ok phase) o := by
  unfold refresh
  rw [h]
  unfold findPhase
  simp only [ensures_bind, ensures_pure]
  exact fun _ _ _ _ _ _ _ _ _ => ⟨_, rfl⟩

/-- The requests by which the phase is found and shown. -/
theorem refresh_asks {p : Request → Prop} (s : Session) (alarm : Option Alarm) (now : Instant)
    (hlatest : p (.latest s.user)) (hringing : p .isRinging)
    (hshow : ∀ phase, p (.show phase)) : (s.refresh alarm now).Asks p := by
  unfold refresh
  split
  · exact asks_pure
  · refine Asks.bind ?_ fun phase => (asks_request (hshow phase)).bind fun _ => asks_pure
    exact (asks_request hlatest).bind fun _ => (asks_request hringing).bind fun _ => asks_pure

/-- Once the scheduler has decided, the next occurrence is found again. -/
theorem exists_nextTrigger {d : Decision} {scheduler : Scheduler}
    (h : s.scheduler.evaluate s.zone now alarm = .ok (d, scheduler)) (ws : List Wakeup) :
    ∃ next, ({ s with scheduler }.keeping ws).nextTrigger alarm now = .ok next := by
  rcases Scheduler.evaluate_cases h with ⟨rfl, -, -⟩ | ⟨a, i, rfl, hi, hs⟩
  · exact ⟨none, rfl⟩
  · refine ⟨some i, ?_⟩
    have hi' : scheduler.nextTrigger a s.zone now = .ok i := by
      rcases hs with ⟨-, rfl⟩ | ⟨-, -, rfl⟩ | ⟨-, -, rfl⟩
      · exact hi
      · exact hi
      · rw [Scheduler.nextTrigger_handling, hi]
    show (scheduler.nextTrigger a s.zone now).map some = _
    rw [hi']
    rfl

/-! ## The tick -/

/-- What comes of a tick of `s` once the alarm is known, and the session after it. -/
inductive Followed (s : Session) (now : Instant) (alarm : Option Alarm) :
    Except SessionFault TickReport × Session → Prop where
  | refused (refusal : Refusal) (ws : List Wakeup)
      (h : s.scheduler.evaluate s.zone now alarm = .error refusal) :
      Followed s now alarm (.error (.refused refusal), s.keeping ws)
  | decided (d : Decision) (scheduler : Scheduler) (phase : Phase) (ws : List Wakeup)
      (h : s.scheduler.evaluate s.zone now alarm = .ok (d, scheduler)) :
      Followed s now alarm (.ok ⟨d, phase, ws.length⟩, { s with scheduler }.keeping ws)

theorem follow_ensures (s : Session) (alarm : Option Alarm) (now : Instant) :
    (s.follow alarm now).Ensures meets (fun res _ => Followed s now alarm res) o := by
  unfold follow
  split
  · next refusal h => exact .refused refusal s.unsaved h
  · next d scheduler h =>
    rw [ensures_bind]
    refine (act_ensures _ d).mono ?_
    rintro s' o' ⟨ws, rfl⟩
    obtain ⟨next, hnext⟩ := exists_nextTrigger h ws
    rw [ensures_bind]
    refine (refresh_ensures hnext).mono ?_
    rintro res o'' ⟨phase, rfl⟩
    exact .decided d scheduler phase ws h

/-- What comes of a tick of `s`, and the session after it, the alarm being read with `reply`. -/
inductive Ticked (s : Session) (now : Instant) (reply : Reply (Option Alarm)) :
    Except SessionFault TickReport × Session → Prop where
  | unread (fault : StoreFault) (ws : List Wakeup)
      (h : inTime s.settings.writeTimeout reply = .error fault) :
      Ticked s now reply (.error (.store fault), s.keeping ws)
  | read (alarm : Option Alarm) (res : Except SessionFault TickReport × Session)
      (h : inTime s.settings.writeTimeout reply = .ok alarm) (hres : Followed s now alarm res) :
      Ticked s now reply res

theorem Followed.of_keeping {ws : List Wakeup} {res : Except SessionFault TickReport × Session}
    (h : Followed (s.keeping ws) now alarm res) : Followed s now alarm res := by
  cases h with
  | refused refusal vs h => exact .refused refusal vs h
  | decided d scheduler phase vs h => exact .decided d scheduler phase vs h

/-- A tick reads the alarm once and follows it. -/
theorem tick_ensures (s : Session) (now : Instant) :
    (s.tick now).Ensures meets
      (fun res _ => ∃ o₁ reply o₂, meets o₁ (.alarmOf s.user) reply o₂ ∧ Ticked s now reply res)
      o := by
  unfold tick
  rw [ensures_bind]
  refine s.retry_ensures.mono ?_
  rintro s' o₁ ⟨ws, rfl⟩
  rw [ensures_request_bind]
  intro reply o₂ hreply
  split
  · next fault h => exact ⟨o₁, reply, o₂, hreply, .unread fault ws h⟩
  · next alarm h =>
    refine ((s.keeping ws).follow_ensures alarm now).mono fun res _ hres => ?_
    exact ⟨o₁, reply, o₂, hreply, .read alarm res h hres.of_keeping⟩

end Session

end Reveille
