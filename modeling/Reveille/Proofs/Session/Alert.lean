import Reveille.Session.Acknowledger
import Reveille.Proofs.Session.TickReport

/-!
# Alerts

An alert is what others notice when an occurrence rings : the alarm loop starts, and the
occurrence is announced. A tick alerts of the occurrence that it reports as ringing, at most
once in either way, and of nothing if it reports none (`Session.tick_alerts`). Acknowledging and
silencing alert nobody (`Acknowledger.acknowledge_asks_quiet`).
-/

namespace Reveille

open Activity

/-- The alarm loop starts, or a ringing alarm is announced. -/
def Notice.isAlert : Notice → Bool
  | .sounded .playAlarm none => true
  | .announced _ => true
  | _ => false

/-- The alerts among notices. -/
def alerts (notices : List Notice) : List Notice := notices.filter Notice.isAlert

/-- The alerts of an occurrence. -/
def alertsOf (user : String) (i : Instant) : List Notice :=
  [.sounded .playAlarm none, .announced ⟨user, i⟩]

@[simp] theorem alerts_nil : alerts [] = [] :=
  rfl

theorem alerts_append (ms ns : List Notice) : alerts (ms ++ ns) = alerts ms ++ alerts ns :=
  List.filter_append ..

/-! ## Requests -/

namespace Request

/-- The request alerts nobody. -/
def IsQuiet : Request → Prop
  | .sound .playAlarm => False
  | .announce _ => False
  | _ => True

theorem alerts_notice?_of_isQuiet {r : Request} (h : r.IsQuiet) (world : World) (x : r.Result) :
    alerts (r.notice? world x).toList = [] := by
  cases r with
  | sound command =>
    cases command <;> first | exact h.elim | (cases x <;> rfl)
  | announce a => exact h.elim
  | «show» phase =>
    unfold notice?
    dsimp only
    split <;> rfl
  | _ => rfl

theorem alerts_notice?_playAlarm (world : World) (x : Except SoundFault Unit) :
    (alerts (notice? world (.sound .playAlarm) x).toList).Sublist [.sounded .playAlarm none] := by
  cases x <;> simp [notice?, alerts, Notice.isAlert]

theorem alerts_notice?_announce (world : World) (a : Announcement) (x : Unit) :
    (alerts (notice? world (.announce a) x).toList).Sublist [.announced a] := by
  unfold notice?
  by_cases h : world.takesAnnouncement <;> simp [h, alerts]

end Request

/-- Another volume neither starts the alarm nor ends it. -/
theorem World.isRinging_setVolume (player : Player) (level : Binary Format.binary32) (fate : Fate) :
    (sound player (.setVolume level) fate).2.isRinging = player.isRinging := by
  unfold sound Player.obey
  cases fate <;> by_cases hlevel : level.InUnitInterval <;> simp [hlevel, Player.isRinging]

namespace Watch

variable {s s' : Watch} {r : Request} {x : r.Result}

theorem notices_of_meets (h : s.Meets r x s') :
    s'.notices = s.notices ++ (r.notice? s.world x).toList := by
  obtain ⟨fate, h⟩ := h
  cases h
  rfl

/-- The alerts since `ms` are among `ns`. -/
def AlertsWithin (ms ns : List Notice) (s : Watch) : Prop :=
  ∃ xs, alerts s.notices = ms ++ xs ∧ xs.Sublist ns

theorem alertsWithin_nil {ms : List Notice} : s.AlertsWithin ms [] ↔ alerts s.notices = ms := by
  simp [AlertsWithin]

theorem AlertsWithin.trans {ms ns ns' : List Notice} (h : s.AlertsWithin ms ns)
    (h' : s'.AlertsWithin (alerts s.notices) ns') : s'.AlertsWithin ms (ns ++ ns') := by
  obtain ⟨xs, hxs, hsub⟩ := h
  obtain ⟨ys, hys, hsub'⟩ := h'
  exact ⟨xs ++ ys, by rw [hys, hxs, List.append_assoc], hsub.append hsub'⟩

/-- A request adds the alerts of its notice. -/
theorem alertsWithin_of_meets {ns : List Notice} (h : s.Meets r x s')
    (hr : (alerts (r.notice? s.world x).toList).Sublist ns) :
    s'.AlertsWithin (alerts s.notices) ns :=
  ⟨_, by rw [notices_of_meets h, alerts_append], hr⟩

theorem alerts_of_meets (h : s.Meets r x s') (hr : r.IsQuiet) :
    alerts s'.notices = alerts s.notices := by
  rw [notices_of_meets h, alerts_append, Request.alerts_notice?_of_isQuiet hr, List.append_nil]

/-- An activity of quiet requests alerts nobody. -/
theorem quiet_ensures {α : Type} {a : Activity α} (h : a.Asks Request.IsQuiet) (s : Watch) :
    a.Ensures Watch.Meets (fun _ s' => alerts s'.notices = alerts s.notices) s :=
  h.ensures (fun _ _ _ _ hr hs hm => (alerts_of_meets hm hr).trans hs) rfl

end Watch

/-! ## Quiet activities -/

namespace Session

variable {p : Request → Prop}

theorem save_asks (s : Session) (w : Wakeup) (hupsert : ∀ user w, p (.upsert user w)) :
    (s.save w).Asks p := by
  refine (asks_request (hupsert _ _)).bind fun x => ?_
  split <;> exact asks_pure

theorem saveAll_asks (s : Session) (ws : List Wakeup) (hupsert : ∀ user w, p (.upsert user w)) :
    (s.saveAll ws).Asks p := by
  induction ws generalizing s with
  | nil => exact asks_pure
  | cons w ws ih => exact (s.save_asks w hupsert).bind fun s' => ih s'

theorem refresh_asks_quiet (s : Session) (alarm : Option Alarm) (now : Instant) :
    (s.refresh alarm now).Asks Request.IsQuiet :=
  s.refresh_asks alarm now trivial trivial fun _ => trivial

end Session

namespace Acknowledger

variable {p : Request → Prop}

theorem silence_asks (hstop : p (.sound .stop)) (hsilent : p (.sound .playSilent)) :
    silence.Asks p :=
  (asks_request hstop).bind fun _ => (asks_request hsilent).bind fun _ => asks_pure

theorem silence_asks_quiet : silence.Asks Request.IsQuiet :=
  silence_asks trivial trivial

/-- The requests by which a wake-up is acknowledged. -/
theorem acknowledge_asks (a : Acknowledger) (alarmInstant : Instant) (ack : Acknowledgment)
    (hlatest : p (.latest a.user)) (hfired : p .lastFired) (hupsert : ∀ w, p (.upsert a.user w))
    (hstop : p (.sound .stop)) (hsilent : p (.sound .playSilent)) :
    (a.acknowledge alarmInstant ack).Asks p := by
  unfold acknowledge
  split
  · exact asks_pure
  · refine Asks.bind ((asks_request hlatest).bind fun _ => asks_pure) fun latest => ?_
    split
    · exact asks_pure
    · refine (asks_request hfired).bind fun fired => ?_
      split
      · exact asks_pure
      · refine (asks_request (hupsert _)).bind fun reply => ?_
        split
        · exact asks_pure
        · exact (silence_asks hstop hsilent).bind fun _ => asks_pure

/-- Acknowledging alerts nobody. -/
theorem acknowledge_asks_quiet (a : Acknowledger) (alarmInstant : Instant) (ack : Acknowledgment) :
    (a.acknowledge alarmInstant ack).Asks Request.IsQuiet :=
  a.acknowledge_asks alarmInstant ack trivial trivial (fun _ => trivial) trivial trivial

end Acknowledger

/-! ## Ticks -/

/-- The alerts of what a tick reports. -/
def reportAlerts (user : String) (report : Except SessionFault TickReport) : List Notice :=
  ((reported? report).map (alertsOf user)).getD []

namespace Session

theorem ring_alerts (s : Session) (trigger : Instant) (w : Watch) :
    (s.ring trigger).Ensures Watch.Meets
      (fun _ w' => w'.AlertsWithin (alerts w.notices) (alertsOf s.user trigger)) w := by
  unfold ring
  rw [ensures_request_bind]
  intro _ w₁ h₁
  have e₁ : alerts w₁.notices = alerts w.notices := Watch.alerts_of_meets h₁ trivial
  rw [ensures_bind]
  refine ((Watch.quiet_ensures (s.save_asks _ fun _ _ => trivial) w₁).and
    (s.save_ensures _)).mono ?_
  rintro s' w₂ ⟨e₂, vs, rfl⟩
  rw [ensures_request_bind]
  intro _ w₃ h₃
  have e₃ : alerts w₃.notices = alerts w₂.notices := Watch.alerts_of_meets h₃ trivial
  rw [ensures_request_bind]
  intro played w₄ h₄
  have a₄ := Watch.alertsWithin_of_meets h₄ (Request.alerts_notice?_playAlarm _ played)
  rw [ensures_request_bind]
  intro told w₅ h₅
  have a₅ := Watch.alertsWithin_of_meets h₅ (Request.alerts_notice?_announce _ _ told)
  rw [e₃, e₂, e₁] at a₄
  exact a₄.trans a₅

theorem act_alerts (s : Session) (d : Decision) (w : Watch) :
    (s.act d).Ensures Watch.Meets (fun _ w' => w'.AlertsWithin (alerts w.notices)
      ((d.ringing?.map (alertsOf s.user)).getD [])) w := by
  unfold act
  split
  · next trigger h =>
    rw [h]
    exact s.ring_alerts trigger w
  · next h =>
    rw [h]
    exact Watch.alertsWithin_nil.mpr rfl

theorem follow_alerts (s : Session) (alarm : Option Alarm) (now : Instant) (w : Watch) :
    (s.follow alarm now).Ensures Watch.Meets (fun res w' =>
      w'.AlertsWithin (alerts w.notices) (reportAlerts s.user res.1)) w := by
  unfold follow
  split
  · exact Watch.alertsWithin_nil.mpr rfl
  · next d scheduler h =>
    rw [ensures_bind]
    refine ((act_alerts _ d w).and (act_ensures _ d)).mono ?_
    rintro s' w₁ ⟨a₁, ws, rfl⟩
    -- The phase is found, so the report is not lost after the alerts.
    obtain ⟨next, hnext⟩ := exists_nextTrigger h ws
    rw [ensures_bind]
    refine ((Watch.quiet_ensures (refresh_asks_quiet _ alarm now) w₁).and
      (refresh_ensures hnext)).mono ?_
    rintro res w₂ ⟨e₂, phase, rfl⟩
    obtain ⟨xs, hxs, hsub⟩ := a₁
    exact ⟨xs, e₂.trans hxs, hsub⟩

/-- A tick alerts of what it reports as ringing, and of nothing else. -/
theorem tick_alerts (s : Session) (now : Instant) (w : Watch) :
    (s.tick now).Ensures Watch.Meets (fun res w' =>
      w'.AlertsWithin (alerts w.notices) (reportAlerts s.user res.1)) w := by
  unfold tick
  rw [ensures_bind]
  refine ((Watch.quiet_ensures (saveAll_asks _ s.unsaved fun _ _ => trivial) w).and
    s.retry_ensures).mono ?_
  rintro s' w₁ ⟨e₁, ws, rfl⟩
  rw [ensures_request_bind]
  intro reply w₂ h₂
  have e₂ : alerts w₂.notices = alerts w₁.notices := Watch.alerts_of_meets h₂ trivial
  rw [← e₁, ← e₂]
  split
  · exact Watch.alertsWithin_nil.mpr rfl
  · exact (s.keeping ws).follow_alerts _ now w₂

end Session

end Reveille
