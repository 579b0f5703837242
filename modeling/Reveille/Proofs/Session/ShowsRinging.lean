import Reveille.Proofs.Session.StaysAcknowledged
import Reveille.Proofs.Session.Superseded

/-!
# What rings is shown

A tick finds the phase from the latest record, as it reads it back, and from the last wake-up that
is still to be saved. When an occurrence has rung that is later than all the others, one of these
two is its pending wake-up, however the upserts have fared, and the other one yields to it
(`Wakeup.newest_of_yieldsTo`). So the occurrence is found to be the latest, and since the alarm is
to be heard it is active, however small the acknowledgment window is. The tick reports it as active
and shows it (`Session.shows_what_rings`).

Others may act meanwhile, as long as they save nothing newer of the user, do not acknowledge the
occurrence and do not silence its alarm (`Turn.LeavesRinging`).
-/

namespace Reveille

open Activity

/-! ## Wake-ups that yield -/

namespace Wakeup

variable {v w : Wakeup} {T : Instant}

/-- The wake-up is of an earlier occurrence, or it is the pending one of this occurrence. -/
def YieldsTo (w : Wakeup) (T : Instant) : Prop := w.alarmInstant < T ∨ w = .pending T

theorem YieldsTo.le (h : w.YieldsTo T) : w.alarmInstant ≤ T := by
  obtain hlt | rfl := h
  · exact fun hgt => Instant.lt_irrefl _ (Instant.lt_trans hlt hgt)
  · exact Instant.le_refl T

theorem YieldsTo.eq_pending (h : w.YieldsTo T) (hw : w.alarmInstant = T) : w = .pending T := by
  obtain hlt | rfl := h
  · exact absurd (hw ▸ hlt) (Instant.lt_irrefl T)
  · rfl

theorem YieldsTo.merge (hv : v.YieldsTo T) (hw : w.YieldsTo T)
    (heq : v.alarmInstant = w.alarmInstant) : (v.merge w).YieldsTo T := by
  obtain hlt | rfl := hv
  · exact .inl hlt
  · obtain rfl := hw.eq_pending heq.symm
    exact .inr rfl

/-- Of two wake-ups that yield to an occurrence, one of which is its own, the newest is its own. -/
theorem newest_of_yieldsTo {stored unsaved : Option Wakeup} (hstored : ∀ v ∈ stored, v.YieldsTo T)
    (hunsaved : ∀ v ∈ unsaved, v.YieldsTo T)
    (h : stored = some (.pending T) ∨ unsaved = some (.pending T)) :
    newest stored unsaved = some (.pending T) := by
  cases stored with
  | none =>
    obtain hnone | rfl := h
    · cases hnone
    · rfl
  | some v =>
    cases unsaved with
    | none => exact h.resolve_right (by rintro ⟨⟩)
    | some w =>
      have hv := hstored v rfl
      have hw := hunsaved w rfl
      unfold newest
      dsimp only
      by_cases heq : v.alarmInstant = w.alarmInstant
      · have hvT : v.alarmInstant = T := by
          obtain h | h := h <;> cases h
          · rfl
          · exact heq
        rw [if_pos heq, hv.eq_pending hvT, hw.eq_pending (heq ▸ hvT)]
        rfl
      rw [if_neg heq]
      obtain h | h := h
      · cases h
        have hlt : w.alarmInstant < T := hw.resolve_right (by rintro rfl; exact heq rfl)
        exact if_pos hlt
      · cases h
        exact if_neg hv.le

end Wakeup

namespace Records

variable {rs : Records} {user user' : String} {w : Wakeup} {T : Instant}

/-- The records of the user yield to the occurrence. -/
def YieldsTo (rs : Records) (user : String) (T : Instant) : Prop :=
  ∀ i v, rs.find? user i = some v → v.YieldsTo T

theorem YieldsTo.merge (h : rs.YieldsTo user T) (hw : user' = user → w.YieldsTo T) :
    (rs.merge user' w).YieldsTo user T := by
  intro i v hv
  rw [find?_merge rs ⟨user', w⟩] at hv
  split at hv
  · next hof =>
    obtain ⟨hu, hi⟩ := hof
    cases hstored : rs.find? user i with
    | none =>
      rw [hstored] at hv
      cases hv
      exact hw hu
    | some stored =>
      rw [hstored] at hv
      cases hv
      have hinstant : stored.alarmInstant = i := (find?_eq_some_iff.mp hstored).1
      exact (h i stored hstored).merge (hw hu) (hinstant.trans hi.symm)
  · exact h i v hv

/-- The latest record is the one of the occurrence, if that has one. -/
theorem YieldsTo.latest? (h : rs.YieldsTo user T) (hheld : rs.Holds user T) :
    rs.latest? user = some (.pending T) := by
  obtain ⟨w, hw⟩ := holds_iff_find?.mp hheld
  obtain rfl := (h T w hw).eq_pending (find?_eq_some_iff.mp hw).1
  refine latest?_eq_some_iff.mpr ⟨hw, fun i v hv => ?_⟩
  rw [← (find?_eq_some_iff.mp hv).1]
  exact (h i v hv).le

theorem YieldsTo.of_mem_latest? (h : rs.YieldsTo user T) : ∀ v ∈ rs.latest? user, v.YieldsTo T :=
  fun v hv => h _ v (find?_latest? hv).1

end Records

/-! ## Surroundings that leave an alarm ringing -/

/-- What is saved of the user yields to the occurrence. -/
def Request.YieldsTo (user : String) (T : Instant) : Request → Prop
  | .upsert user' w => user' = user → w.YieldsTo T
  | _ => True

/-- The request does not silence the alarm. -/
def Request.KeepsRinging : Request → Prop
  | .sound .playSilent => False
  | .sound .stop => False
  | _ => True

/-- The incident saves nothing newer of the user than the occurrence, does not acknowledge it and
does not silence its alarm. -/
def Incident.LeavesRinging (user : String) (T : Instant) : Incident → Prop
  | .request r _ => r.YieldsTo user T ∧ r.KeepsRinging
  | _ => True

/-- All that happens before the request leaves the occurrence ringing. -/
def Turn.LeavesRinging (user : String) (T : Instant) (turn : Turn) : Prop :=
  ∀ i ∈ turn.before, i.LeavesRinging user T

theorem Turn.leavesRinging_undisturbed (user : String) (T : Instant) :
    Turn.undisturbed.LeavesRinging user T := fun _ hi => absurd hi List.not_mem_nil

namespace World

variable {world : World} {user : String} {T : Instant} {r : Request}

theorem yieldsTo_answer (h : world.wakeups.records.YieldsTo user T) (hr : r.YieldsTo user T)
    (fate : Fate) : (world.answer fate r).2.wakeups.records.YieldsTo user T := by
  cases r with
  | upsert user' w =>
    obtain hrecords | ⟨hrecords, -⟩ := World.upsert_cases world.wakeups user' w fate
    · exact hrecords ▸ h.merge hr
    · exact hrecords ▸ h
  | announce a =>
    unfold answer
    dsimp only
    split <;> exact h
  | _ => exact h

theorem yieldsTo_afterAll {incidents : List Incident}
    (h : world.wakeups.records.YieldsTo user T) (hi : ∀ i ∈ incidents, i.LeavesRinging user T) :
    (world.afterAll incidents).wakeups.records.YieldsTo user T := by
  refine World.afterAll_keeps (p := fun world => world.wakeups.records.YieldsTo user T)
    (fun world i hi h => ?_) incidents hi h
  cases i with
  | request r fate => exact yieldsTo_answer h hi.1 fate
  | _ => exact h

theorem isRinging_answer (h : world.player.isRinging = true) (hr : r.KeepsRinging) (fate : Fate) :
    (world.answer fate r).2.player.isRinging = true := by
  cases r with
  | sound command =>
    cases command with
    | playSilent => exact hr.elim
    | stop => exact hr.elim
    | playAlarm =>
      cases fate with
      | down reason => exact h
      | _ => rfl
    | setVolume level => exact (isRinging_setVolume world.player level fate).trans h
  | announce a =>
    unfold answer
    dsimp only
    split <;> exact h
  | _ => exact h

theorem isRinging_afterAll {incidents : List Incident} (h : world.player.isRinging = true)
    (hi : ∀ i ∈ incidents, i.LeavesRinging user T) :
    (world.afterAll incidents).player.isRinging = true := by
  refine World.afterAll_keeps (p := fun world => world.player.isRinging = true)
    (fun world i hi h => ?_) incidents hi h
  cases i with
  | request r fate => exact isRinging_answer h hi.2 fate
  | _ => exact h

end World

/-! ## What an activity has been told -/

namespace Exchange

/-- The alarm that has been told, if it has been asked for. -/
def alarm? : Exchange → Option (Option Alarm)
  | ⟨.alarmOf _, some (.ok alarm)⟩ => some alarm
  | _ => none

/-- The alarm has been started. -/
def startsAlarm : Exchange → Bool
  | ⟨.sound .playAlarm, .ok ()⟩ => true
  | _ => false

theorem reply_of_alarm? {user : String} {reply : Reply (Option Alarm)} {alarm : Option Alarm}
    (h : alarm? ⟨.alarmOf user, reply⟩ = some alarm) : reply = some (.ok alarm) := by
  cases reply with
  | none => cases h
  | some answer =>
    cases answer with
    | error fault => cases h
    | ok told =>
      cases h
      rfl

end Exchange

namespace Shared

variable {p : Turn → Prop} {s s' : Shared} {r : Request} {x : r.Result} {user : String}
  {T : Instant}

/-- The first alarm that the activity has been told. -/
def alarm? (s : Shared) : Option (Option Alarm) := s.exchanges.findSome? Exchange.alarm?

/-- The activity has started the alarm. -/
def HasStarted (s : Shared) : Prop := ∃ e ∈ s.exchanges, e.startsAlarm = true

theorem alarm?_of_meets (hm : Meets p s r x s') :
    s'.alarm? = s.alarm?.or (Exchange.alarm? ⟨r, x⟩) := by
  unfold alarm?
  rw [exchanges_of_meets hm, List.findSome?_append, List.findSome?_singleton]

/-- What an activity has been told first stays so. -/
theorem alarm?_ensures {α : Type} (a : Activity α) {alarm : Option Alarm}
    (h : s.alarm? = some alarm) : a.Ensures (Meets p) (fun _ s' => s'.alarm? = some alarm) s := by
  refine (Ensures.of_keeps (I := fun s => s.alarm? = some alarm) (fun s r x s' h hm => ?_) h
    (.of_forall fun _ _ => trivial)).mono fun _ _ h => h.1
  rw [alarm?_of_meets hm, h]
  rfl

theorem HasStarted.of_meets (hm : Meets p s r x s') (h : s'.HasStarted) :
    s.HasStarted ∨ Exchange.startsAlarm ⟨r, x⟩ = true := by
  obtain ⟨e, he, hstarts⟩ := h
  rw [exchanges_of_meets hm] at he
  rcases List.mem_append.mp he with he | he
  · exact .inl ⟨e, he, hstarts⟩
  · rw [List.mem_singleton.mp he] at hstarts
    exact .inr hstarts

/-- The alarm that the activity has started is to be heard. -/
def IsHeard (s : Shared) : Prop := s.HasStarted → s.world.player.isRinging = true

theorem IsHeard.of_meets (h : s.IsHeard) (hm : Meets (Turn.LeavesRinging user T) s r x s')
    (hr : r.KeepsRinging) : s'.IsHeard := by
  intro hstarted
  have hcases := HasStarted.of_meets hm hstarted
  obtain ⟨turn, hbefore, hm⟩ := hm
  cases hm
  obtain hstarted | hstarts := hcases
  · exact World.isRinging_answer (World.isRinging_afterAll (h hstarted) hbefore) hr turn.fate
  · cases r with
    | sound command =>
      cases command with
      | playAlarm =>
        generalize turn.fate = fate at hstarts ⊢
        cases fate with
        | down reason => cases hstarts
        | _ => rfl
      | _ => cases hstarts
    | _ => cases hstarts

theorem IsHeard.ensures {α : Type} {a : Activity α} (h : s.IsHeard) (user : String) (T : Instant)
    (ha : a.Asks Request.KeepsRinging) :
    a.Ensures (Meets (Turn.LeavesRinging user T)) (fun _ s' => s'.IsHeard) s :=
  ha.ensures (fun _ _ _ _ hr h hm => h.of_meets hm hr) h

theorem yieldsTo_of_meets (h : s.world.wakeups.records.YieldsTo user T)
    (hm : Meets (Turn.LeavesRinging user T) s r x s') (hr : r.YieldsTo user T) :
    s'.world.wakeups.records.YieldsTo user T := by
  obtain ⟨turn, hbefore, hm⟩ := hm
  cases hm
  exact World.yieldsTo_answer (World.yieldsTo_afterAll h hbefore) hr turn.fate

theorem isRinging_of_meets {ringing : Bool} (hm : Meets p s .isRinging ringing s') :
    ringing = s'.world.player.isRinging := by
  obtain ⟨turn, -, hm⟩ := hm
  cases hm
  rfl

theorem phase_of_meets {phase : Phase} {y : Unit} (hm : Meets p s (.show phase) y s') :
    s'.world.phase = phase := by
  obtain ⟨turn, -, hm⟩ := hm
  cases hm
  rfl

end Shared

/-! ## Ticks -/

/-- Whatever the window, a pending wake-up is active while the alarm is to be heard. -/
theorem AckPolicy.phase_ringing (policy : AckPolicy) (next : Option Instant) (T now : Instant) :
    policy.phase next (some (.pending T)) true now = .active T :=
  if_pos ⟨rfl, .inr rfl⟩

namespace Session

variable {s : Session} {w : Wakeup} {T now : Instant} {o o' : Shared} {r : Request} {x : r.Result}

/-- The wake-ups of the user, those with a record and those that are still to be saved, yield to the
occurrence. -/
structure YieldsTo (s : Session) (T : Instant) (o : Shared) : Prop where
  records : o.world.wakeups.records.YieldsTo s.user T
  unsaved : ∀ w ∈ s.unsaved, w.YieldsTo T

/-- The occurrence is the latest one of the user, with a record or as the last one that is still to
be saved, and its alarm is to be heard if it has been started. -/
structure Rings (s : Session) (T : Instant) (o : Shared) : Prop where
  yields : s.YieldsTo T o
  covered : o.world.wakeups.records.Holds s.user T ∨ s.unsaved.getLast? = some (.pending T)
  heard : o.IsHeard

theorem YieldsTo.of_meets (h : s.YieldsTo T o)
    (hm : Shared.Meets (Turn.LeavesRinging s.user T) o r x o') (hr : r.YieldsTo s.user T) :
    s.YieldsTo T o' :=
  ⟨Shared.yieldsTo_of_meets h.records hm hr, h.unsaved⟩

theorem Rings.of_meets (h : s.Rings T o)
    (hm : Shared.Meets (Turn.LeavesRinging s.user T) o r x o') (hr : r.YieldsTo s.user T)
    (hquiet : r.KeepsRinging) : s.Rings T o' :=
  ⟨h.yields.of_meets hm hr, h.covered.imp_left (Shared.holds_of_meets hm),
    h.heard.of_meets hm hquiet⟩

/-- To save a wake-up that yields to the occurrence leaves it to the records or to be saved last. -/
theorem save_yields (h : s.YieldsTo T o) (hw : w.YieldsTo T) :
    (s.save w).Ensures (Shared.Meets (Turn.LeavesRinging s.user T)) (fun s' o' => s'.YieldsTo T o' ∧
      (o'.world.wakeups.records.Holds s'.user w.alarmInstant ∨ s'.unsaved.getLast? = some w))
      o := by
  unfold save
  rw [ensures_request_bind]
  intro reply o₁ h₁
  have hrecords := h.of_meets h₁ fun _ => hw
  have hkept : YieldsTo { s with unsaved := s.unsaved ++ [w] } T o₁ := by
    refine ⟨hrecords.records, fun v hv => ?_⟩
    rcases List.mem_append.mp hv with hv | hv
    · exact h.unsaved v hv
    · rwa [List.mem_singleton.mp hv]
  obtain ⟨turn, -, hm⟩ := h₁
  cases hm
  obtain hmerge | ⟨-, hreply⟩ :=
    World.upsert_cases (o.world.afterAll turn.before).wakeups s.user w turn.fate
  · have hheld : (World.upsert (o.world.afterAll turn.before).wakeups s.user w
        turn.fate).2.records.Holds s.user w.alarmInstant := by
      rw [hmerge]
      exact Records.holds_merge.mpr (.inr ⟨rfl, rfl⟩)
    split
    · exact ⟨hrecords, .inl hheld⟩
    · exact ⟨hkept, .inl hheld⟩
  · split
    · next stored heq => exact absurd heq (hreply stored)
    · exact ⟨hkept, .inr List.getLast?_concat⟩

theorem saveAll_yields (ws : List Wakeup) (h : s.YieldsTo T o) (hws : ∀ w ∈ ws, w.YieldsTo T) :
    (s.saveAll ws).Ensures (Shared.Meets (Turn.LeavesRinging s.user T))
      (fun s' o' => s'.YieldsTo T o') o := by
  induction ws generalizing s o with
  | nil => exact h
  | cons w ws ih =>
    obtain ⟨hw, hws⟩ := List.forall_mem_cons.mp hws
    unfold saveAll
    rw [ensures_bind]
    refine ((save_yields h hw).and (s.save_ensures w)).mono ?_
    rintro s' o₁ ⟨⟨h₁, -⟩, us, rfl⟩
    exact ih h₁ hws

theorem retry_yields (h : s.YieldsTo T o) : s.retry.Ensures
    (Shared.Meets (Turn.LeavesRinging s.user T)) (fun s' o' => s'.YieldsTo T o') o :=
  saveAll_yields (s := s.keeping []) s.unsaved ⟨h.records, by rintro w ⟨⟩⟩ h.unsaved

/-- An occurrence that rings is the latest one, however its upsert fares. -/
theorem ring_rings (h : s.YieldsTo T o) (hheard : o.IsHeard) : (s.ring T).Ensures
    (Shared.Meets (Turn.LeavesRinging s.user T)) (fun s' o' => s'.Rings T o') o := by
  unfold ring
  rw [ensures_request_bind]
  intro _ o₁ h₁
  rw [ensures_bind]
  have hsaved := save_yields (h.of_meets h₁ trivial) (w := .pending T) (.inr rfl)
  have hstill := (hheard.of_meets h₁ trivial).ensures s.user T
    (save_asks s (.pending T) fun _ _ => trivial)
  refine ((hsaved.and hstill).and (s.save_ensures _)).mono ?_
  rintro s' o₂ ⟨⟨⟨hyields, hcovered⟩, hheard⟩, ws, rfl⟩
  have h₂ : (s.keeping ws).Rings T o₂ := ⟨hyields, hcovered, hheard⟩
  rw [ensures_request_bind]
  intro _ o₃ h₃
  rw [ensures_request_bind]
  intro _ o₄ h₄
  rw [ensures_request_bind]
  intro _ o₅ h₅
  rw [ensures_pure]
  exact ((h₂.of_meets h₃ trivial trivial).of_meets h₄ trivial trivial).of_meets h₅ trivial trivial

/-- The phase is found from the occurrence that rings, if the latest wake-up is told. -/
theorem refresh_shows {alarm : Option Alarm} (h : s.Rings T o) : (s.refresh alarm now).Ensures
    (Shared.Meets (Turn.LeavesRinging s.user T)) (fun res o' => ∀ phase, res = .ok phase →
      o'.Informed → o'.HasStarted → phase = .active T ∧ o'.world.phase = .active T) o := by
  unfold refresh
  split
  · rintro phase ⟨⟩
  next next hnext =>
  unfold findPhase
  rw [ensures_bind, ensures_request_bind]
  intro reply o₁ h₁
  rw [ensures_request_bind]
  intro ringing o₂ h₂
  rw [ensures_pure, ensures_request_bind]
  intro _ o₃ h₃
  rw [ensures_pure]
  rintro phase ⟨⟩ hinformed hstarted
  have hrings₁ : s.Rings T o₁ := h.of_meets h₁ trivial trivial
  have hrings₂ : s.Rings T o₂ := hrings₁.of_meets h₂ trivial trivial
  have hreply : reply = some (.ok (o₁.world.wakeups.records.latest? s.user)) :=
    Shared.latest_of_meets h₁ (((hinformed.of_meets h₃).1.of_meets h₂).1.of_meets h₁).2
  have hnewest : Wakeup.newest (o₁.world.wakeups.records.latest? s.user) s.unsaved.getLast? =
      some (.pending T) := by
    refine Wakeup.newest_of_yieldsTo hrings₁.yields.records.of_mem_latest? (fun w hw => ?_)
      (hrings₁.covered.imp_left hrings₁.yields.records.latest?)
    exact hrings₁.yields.unsaved w (List.mem_of_getLast? hw)
  have hringing : ringing = true := by
    rw [Shared.isRinging_of_meets h₂]
    refine hrings₂.heard ((Shared.HasStarted.of_meets h₃ hstarted).resolve_right ?_)
    rintro ⟨⟩
  have hphase : (AckPolicy.ofSettings s.settings).phase next (Wakeup.newest
      (inTime s.settings.writeTimeout reply).toOption.join s.unsaved.getLast?) ringing now =
      .active T := by
    rw [hreply, hringing]
    show AckPolicy.phase _ next (Wakeup.newest (o₁.world.wakeups.records.latest? s.user) _) true _ =
      _
    rw [hnewest]
    exact AckPolicy.phase_ringing _ next T now
  exact ⟨hphase, (Shared.phase_of_meets h₃).trans hphase⟩

/-- Once the scheduler has decided that the occurrence rings, the tick reports it as active. -/
theorem follow_shows {alarm : Option Alarm} {scheduler : Scheduler} (h : s.YieldsTo T o)
    (hheard : o.IsHeard)
    (hd : s.scheduler.evaluate s.zone now alarm = .ok (.triggered T, scheduler)) :
    (s.follow alarm now).Ensures (Shared.Meets (Turn.LeavesRinging s.user T)) (fun res o' =>
      o'.Informed → o'.HasStarted →
        res.1 = .ok ⟨.triggered T, .active T, res.2.unsaved.length⟩ ∧
          o'.world.phase = .active T) o := by
  unfold follow
  rw [hd]
  dsimp only
  have hring := ring_rings (s := { s with scheduler }) ⟨h.records, h.unsaved⟩ hheard
  rw [ensures_bind]
  refine (hring.and (ring_ensures { s with scheduler } T)).mono ?_
  rintro s' o₁ ⟨h₁, ws, rfl⟩
  obtain ⟨next, hnext⟩ := exists_nextTrigger hd ws
  rw [ensures_bind]
  refine ((refresh_shows h₁).and (refresh_ensures hnext)).mono ?_
  rintro res o₂ ⟨h₂, phase, rfl⟩ hinformed hstarted
  obtain ⟨rfl, hshown⟩ := h₂ phase rfl hinformed hstarted
  exact ⟨rfl, hshown⟩

theorem tick_shows {alarm : Option Alarm} {scheduler : Scheduler} (h : s.YieldsTo T o)
    (hbegin : o.exchanges = [])
    (hd : s.scheduler.evaluate s.zone now alarm = .ok (.triggered T, scheduler)) :
    (s.tick now).Ensures (Shared.Meets (Turn.LeavesRinging s.user T)) (fun res o' =>
      o'.alarm? = some alarm → o'.Informed → o'.HasStarted →
        res.1 = .ok ⟨.triggered T, .active T, res.2.unsaved.length⟩ ∧
          o'.world.phase = .active T) o := by
  have huntold : o.alarm? = none := by
    unfold Shared.alarm?
    rw [hbegin]
    rfl
  have hheard : o.IsHeard := by
    rintro ⟨e, he, -⟩
    rw [hbegin] at he
    cases he
  have hretry : s.retry.Ensures (Shared.Meets (Turn.LeavesRinging s.user T))
      (fun _ o' => o'.alarm? = none) o := by
    refine (saveAll_asks (p := fun r => ∀ x, Exchange.alarm? ⟨r, x⟩ = none) _ s.unsaved
      fun _ _ _ => rfl).ensures (fun _ _ x _ hr h hm => ?_) huntold
    rw [Shared.alarm?_of_meets hm, h, hr x]
    rfl
  unfold tick
  rw [ensures_bind]
  have hstill := hheard.ensures s.user T
    (saveAll_asks (s.keeping []) s.unsaved fun _ _ => trivial)
  refine ((((retry_yields h).and hstill).and hretry).and s.retry_ensures).mono ?_
  rintro s₁ o₁ ⟨⟨⟨hyields, hheard₁⟩, huntold₁⟩, ws, rfl⟩
  rw [ensures_request_bind]
  intro reply o₂ h₂
  have htold := Shared.alarm?_of_meets h₂
  rw [huntold₁, Option.none_or] at htold
  split
  · next fault hfault =>
    intro halarm
    obtain rfl := Exchange.reply_of_alarm? (htold.symm.trans halarm)
    cases hfault
  · next told hreply =>
    obtain rfl := inTime_eq_ok hreply
    have htold : o₂.alarm? = some told := htold
    by_cases hsame : told = alarm
    · subst hsame
      refine (follow_shows (s := s.keeping ws) (hyields.of_meets h₂ trivial)
        (hheard₁.of_meets h₂ trivial) hd).mono fun res o' hres _ => hres
    · refine (Shared.alarm?_ensures _ htold).mono fun res o' hkept halarm => ?_
      cases hkept.symm.trans halarm
      exact absurd rfl hsame

/-! ## The theorem -/

/-- Of a tick of a session with any settings, at any reading of the clock, amid others who leave the
occurrence `T` ringing : the wake-ups of the user, those with a record and those that are still to
be saved, are of earlier occurrences, or pending ones of `T`. If the scheduler decides that `T`
rings, on the alarm that the tick is told, the alarm is started and the read of the latest wake-up
does not fail, then the tick reports `T` as active and leaves it so on show. The upserts may fare as
they like, and the acknowledgment window may be of any length. -/
theorem shows_what_rings (s : Session) (now T : Instant) (world : World) (turns : List Turn)
    (alarm : Option Alarm) (scheduler : Scheduler)
    (hrecords : ∀ i w, world.wakeups.records.find? s.user i = some w → w.YieldsTo T)
    (hunsaved : ∀ w ∈ s.unsaved, w.YieldsTo T)
    (hturns : ∀ turn ∈ turns, turn.LeavesRinging s.user T)
    (hdecides : s.scheduler.evaluate s.zone now alarm = .ok (.triggered T, scheduler)) :
    let tick := (s.tick now).runAmid turns ⟨world, []⟩
    tick.2.alarm? = some alarm → (∃ e ∈ tick.2.exchanges, e.startsAlarm = true) →
      (∀ e ∈ tick.2.exchanges, e.isFailedRead = false) →
        tick.1.1 = .ok ⟨.triggered T, .active T, tick.1.2.unsaved.length⟩ ∧
          tick.2.world.phase = .active T := by
  intro tick htold hstarted hinformed
  have htick := tick_shows (o := ⟨world, []⟩) ⟨hrecords, hunsaved⟩ rfl hdecides
  exact htick.runAmid (Turn.leavesRinging_undisturbed s.user T) hturns htold hinformed hstarted

/-- Twenty seconds past eight, with no acknowledgment window at all, eight o'clock rings while
neither it nor the wake-up of the day before can be saved, and others acknowledge that one. Eight
o'clock is shown as active. -/
theorem shows_what_rings_at_eight :
    let eight : Instant := ⟨1781078400, 0, by decide, by decide, by decide, by decide⟩
    let now : Instant := ⟨1781078420, 0, by decide, by decide, by decide, by decide⟩
    let yesterday : Instant := ⟨1780992000, 0, by decide, by decide, by decide, by decide⟩
    let settings : Settings := { Settings.defaults with ackWindowMs := 0 }
    let world : World :=
      .new ⟨"config", ⟨settings, [⟨"ada", ⟨8, 0⟩⟩]⟩, none⟩ ⟨"wakeups", .empty, none⟩
    let s : Session :=
      { Session.new "ada" (.fixed 0) settings with unsaved := [.pending yesterday] }
    let acknowledges : Incident :=
      .request (.upsert "ada" ⟨yesterday, some ⟨now, none⟩⟩) .answered
    let turns : List Turn := [⟨[], .down "busy"⟩, .undisturbed, .undisturbed,
      ⟨[acknowledges], .givenUp .untouched⟩]
    let tick := (s.tick now).runAmid turns ⟨world, []⟩
    tick.1.2.unsaved = [.pending yesterday, .pending eight] ∧
      tick.2.world.wakeups.latest? "ada" = some ⟨yesterday, some ⟨now, none⟩⟩ ∧
      tick.1.1 = .ok ⟨.triggered eight, .active eight, tick.1.2.unsaved.length⟩ ∧
      tick.2.world.phase = .active eight := by
  intro eight now yesterday settings world s acknowledges turns
  dsimp only
  have hearlier : (Wakeup.pending yesterday).YieldsTo eight := .inl (by decide)
  have hleaves : acknowledges.LeavesRinging "ada" eight := ⟨fun _ => .inl (by decide), trivial⟩
  have hturns : ∀ turn ∈ turns, turn.LeavesRinging "ada" eight := by
    simpa [turns, Turn.LeavesRinging, Turn.undisturbed] using hleaves
  refine ⟨by decide +kernel, by decide +kernel, ?_⟩
  exact shows_what_rings s now eight world turns (some ⟨8, 0⟩) (s.scheduler.decide eight now).2
    (by rintro i w ⟨⟩) (fun w hw => List.mem_singleton.mp hw ▸ hearlier) hturns
    (by decide +kernel) (by decide +kernel) (by decide +kernel) (by decide +kernel)

end Session

end Reveille
