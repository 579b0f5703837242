import Reveille.Proofs.Phase
import Reveille.Proofs.Records.History
import Reveille.Proofs.Session.NothingLost
import Reveille.Proofs.Session.Sharing

/-!
# Acknowledged occurrences stay acknowledged

A call that acknowledges an occurrence returns with its record acknowledged
(`Acknowledger.acknowledge_acknowledges`), and no request takes that back, whoever makes it and
however it fares (`World.acknowledges_after`). So the latest record is from then on of a later
occurrence, or of this one and acknowledged (`Wakeup.IsBeyond`), and joining to it what is still to
be saved does not change that. A tick that is told the latest wake-up does not find the occurrence
active any more (`Session.stays_acknowledged`).
-/

namespace Reveille

open Activity

/-! ## Acknowledged records -/

namespace Wakeup

variable {v w : Wakeup} {i : Instant}

/-- The wake-up is of a later occurrence, or of this one and acknowledged. -/
def IsBeyond (w : Wakeup) (i : Instant) : Prop :=
  i < w.alarmInstant ∨ w.alarmInstant = i ∧ w.isAcknowledged = true

/-- The later of two wake-ups is beyond what the first of them is beyond. -/
theorem IsBeyond.newest (h : v.IsBeyond i) : ∀ unsaved : Option Wakeup,
    ∃ w, newest (some v) unsaved = some w ∧ w.IsBeyond i
  | none => ⟨v, rfl, h⟩
  | some u => by
    unfold Wakeup.newest
    dsimp only
    by_cases heq : v.alarmInstant = u.alarmInstant
    · rw [if_pos heq]
      refine ⟨_, rfl, h.imp_right fun hack => ⟨hack.1, ?_⟩⟩
      rw [isAcknowledged_merge, hack.2, Bool.true_or]
    rw [if_neg heq]
    by_cases hlt : u.alarmInstant < v.alarmInstant
    · rw [if_pos hlt]
      exact ⟨v, rfl, h⟩
    · rw [if_neg hlt]
      refine ⟨u, rfl, .inl ?_⟩
      have hvu : v.alarmInstant < u.alarmInstant :=
        Decidable.byContradiction fun hnot => heq (Instant.eq_of_not_lt hnot hlt)
      rcases h with hi | ⟨rfl, -⟩
      · exact Instant.lt_trans hi hvu
      · exact hvu

/-- The phase of a wake-up that is beyond an occurrence does not show it as active. -/
theorem IsBeyond.phase_ne (h : w.IsBeyond i) (policy : AckPolicy) (next : Option Instant)
    (ringing : Bool) (now : Instant) : policy.phase next (some w) ringing now ≠ .active i := by
  unfold AckPolicy.phase
  dsimp only
  split
  · next hactive =>
    intro heq
    obtain rfl := Phase.active.inj heq
    obtain hlt | ⟨-, hack⟩ := h
    · exact Instant.lt_irrefl _ hlt
    · rw [hactive.1] at hack
      cases hack
  · split
    · rintro ⟨⟩
    · cases next <;> rintro ⟨⟩

end Wakeup

namespace Records

variable {rs : Records} {user : String} {i : Instant} {w : Wakeup}

/-- The record of the occurrence is acknowledged. -/
def Acknowledges (rs : Records) (user : String) (i : Instant) : Prop :=
  ∃ w, rs.find? user i = some w ∧ w.isAcknowledged = true

theorem Acknowledges.merge (h : rs.Acknowledges user i) (user' : String) (w : Wakeup) :
    (rs.merge user' w).Acknowledges user i := by
  obtain ⟨v, hv, hack⟩ := h
  unfold Acknowledges
  rw [find?_merge rs ⟨user', w⟩, hv]
  by_cases hof : Record.IsOf ⟨user', w⟩ user i
  · rw [if_pos hof]
    refine ⟨_, rfl, ?_⟩
    rw [Wakeup.isAcknowledged_merge, hack, Bool.true_or]
  · rw [if_neg hof]
    exact ⟨v, rfl, hack⟩

theorem acknowledges_merge (hw : w.isAcknowledged = true) :
    (rs.merge user w).Acknowledges user w.alarmInstant := by
  unfold Acknowledges
  rw [find?_merge rs ⟨user, w⟩, if_pos ⟨rfl, rfl⟩]
  refine ⟨_, rfl, ?_⟩
  cases rs.find? user w.alarmInstant with
  | none => exact hw
  | some v =>
    show (v.merge w).isAcknowledged = true
    rw [Wakeup.isAcknowledged_merge, hw, Bool.or_true]

/-- The latest record is of a later occurrence, or of this one and acknowledged. -/
theorem Acknowledges.latest? (h : rs.Acknowledges user i) :
    ∃ v, rs.latest? user = some v ∧ v.IsBeyond i := by
  obtain ⟨w, hw, hack⟩ := h
  cases hlatest : rs.latest? user with
  | none =>
    rw [latest?_eq_none_iff.mp hlatest] at hw
    cases hw
  | some v =>
    obtain ⟨hv, hmax⟩ := find?_latest? hlatest
    refine ⟨v, rfl, ?_⟩
    by_cases hlt : i < v.alarmInstant
    · exact .inl hlt
    · obtain rfl : v.alarmInstant = i := Instant.eq_of_not_lt (hmax i w hw) hlt
      rw [hw] at hv
      cases hv
      exact .inr ⟨rfl, hack⟩

end Records

/-! ## Surroundings in which a record is acknowledged -/

variable {user : String} {i : Instant} {p : Turn → Prop}

/-- Whatever happens, a record that is acknowledged stays so. -/
theorem World.acknowledges_after (world : World) (incident : Incident)
    (h : world.wakeups.records.Acknowledges user i) :
    (world.after incident).wakeups.records.Acknowledges user i := by
  obtain hr | ⟨user', w, hr⟩ := world.records_after incident <;> rw [hr]
  · exact h
  · exact h.merge user' w

theorem World.acknowledges_afterAll {world : World} (incidents : List Incident)
    (h : world.wakeups.records.Acknowledges user i) :
    (world.afterAll incidents).wakeups.records.Acknowledges user i :=
  World.afterAll_keeps (fun world incident _ => world.acknowledges_after incident) incidents
    (fun _ _ => trivial) h

namespace Shared

variable {s s' : Shared} {r : Request} {x : r.Result}

theorem acknowledges_of_meets (hm : Meets p s r x s')
    (h : s.world.wakeups.records.Acknowledges user i) :
    s'.world.wakeups.records.Acknowledges user i := by
  obtain ⟨turn, -, hm⟩ := hm
  cases hm
  exact World.acknowledges_after _ (.request r turn.fate)
    (World.acknowledges_afterAll turn.before h)

/-- An upsert that is answered with a record has joined the wake-up. -/
theorem acknowledges_of_upsert {w : Wakeup} {y : Reply Wakeup} {stored : Wakeup}
    (hm : Meets p s (.upsert user w) y s') (hy : y = some (.ok stored))
    (hw : w.isAcknowledged = true) : s'.world.wakeups.records.Acknowledges user w.alarmInstant := by
  obtain ⟨turn, -, hm⟩ := hm
  cases hm
  obtain hr | ⟨-, hnot⟩ :=
    World.upsert_cases (s.world.afterAll turn.before).wakeups user w turn.fate
  · show (World.upsert _ user w turn.fate).2.records.Acknowledges user w.alarmInstant
    rw [hr]
    exact Records.acknowledges_merge hw
  · exact absurd hy (hnot stored)

/-- Whoever is told the latest wake-up is told one that is beyond an acknowledged occurrence. -/
theorem isBeyond_of_latest {y : Reply (Option Wakeup)} (hm : Meets p s (.latest user) y s')
    (h : s.world.wakeups.records.Acknowledges user i)
    (hread : Exchange.isFailedRead ⟨.latest user, y⟩ = false) :
    ∃ v, y = some (.ok (some v)) ∧ v.IsBeyond i := by
  obtain ⟨v, hv, hbeyond⟩ := (acknowledges_of_meets hm h).latest?
  refine ⟨v, ?_, hbeyond⟩
  rw [latest_of_meets hm hread, hv]

/-- No read of the latest wake-up has failed. -/
def Informed (s : Shared) : Prop := ∀ e ∈ s.exchanges, e.isFailedRead = false

theorem Informed.of_meets (hm : Meets p s r x s') (h : s'.Informed) :
    s.Informed ∧ Exchange.isFailedRead ⟨r, x⟩ = false := by
  unfold Informed at h
  rw [exchanges_of_meets hm] at h
  exact ⟨fun e he => h e (List.mem_append_left _ he),
    h _ (List.mem_append_right _ (List.mem_singleton_self _))⟩

/-- The occurrence is acknowledged, and has not been shown as active unless a read has failed. -/
structure Past (user : String) (i : Instant) (s : Shared) : Prop where
  acknowledged : s.world.wakeups.records.Acknowledges user i
  unshown : s.Informed → ∀ e ∈ s.exchanges, e.request ≠ .show (.active i)

theorem Past.of_meets (h : s.Past user i) (hm : Meets p s r x s')
    (hr : s'.Informed → r ≠ .show (.active i)) : s'.Past user i := by
  refine ⟨acknowledges_of_meets hm h.acknowledged, fun hs e he => ?_⟩
  rw [exchanges_of_meets hm] at he
  rcases List.mem_append.mp he with he | he
  · exact h.unshown (hs.of_meets hm).1 e he
  · rw [List.mem_singleton.mp he]
    exact hr hs

/-- An activity that does not show the occurrence as active leaves it past. -/
theorem Past.ensures {α : Type} {a : Activity α} (h : s.Past user i)
    (ha : a.Asks (· ≠ .show (.active i))) :
    a.Ensures (Meets p) (fun _ s' => s'.Past user i) s :=
  ha.ensures (fun _ _ _ _ hr h hm => h.of_meets hm fun _ => hr) h

end Shared

/-! ## Calls -/

namespace Acknowledger

/-- A call that acknowledges an occurrence returns with its record acknowledged. -/
theorem acknowledge_acknowledges (a : Acknowledger) (alarmInstant : Instant) (ack : Acknowledgment)
    (s : Shared) : (a.acknowledge alarmInstant ack).Ensures (Shared.Meets p) (fun reply s' =>
      ∀ w, reply = .ok w → s'.world.wakeups.records.Acknowledges a.user alarmInstant) s := by
  have hfails : ∀ (fault : SessionFault) (s' : Shared) (w : Wakeup), Except.error fault = .ok w →
      s'.world.wakeups.records.Acknowledges a.user alarmInstant := by
    rintro fault s' w ⟨⟩
  refine a.ensures_acknowledge (hfails _ s) fun _ s₁ _ => ⟨fun _ => hfails _ s₁, fun _ s₂ _ => ?_⟩
  refine ⟨fun _ => hfails _ s₂, fun _ _ _ _ => a.ensures_conclude fun x s₃ h₃ => ?_⟩
  refine ⟨fun _ => hfails _ s₃, fun stored hstored => ?_⟩
  have hack := Shared.acknowledges_of_upsert h₃ (inTime_eq_ok hstored) rfl
  refine (Asks.ensures (I := fun s => s.world.wakeups.records.Acknowledges a.user alarmInstant)
    (silence_asks (p := fun _ => True) trivial trivial) ?_ hack).mono fun _ _ h _ _ => h
  exact fun _ _ _ _ _ h hm => Shared.acknowledges_of_meets hm h

end Acknowledger

/-! ## Ticks -/

namespace Session

/-- The requests by which an occurrence rings. -/
theorem act_asks {p : Request → Prop} (s : Session) (d : Decision) (hfire : ∀ i, p (.fire i))
    (hupsert : ∀ user w, p (.upsert user w)) (hsound : ∀ command, p (.sound command))
    (hannounce : ∀ a, p (.announce a)) : (s.act d).Asks p := by
  unfold act
  split
  · refine (asks_request (hfire _)).bind fun _ => ?_
    refine (save_asks s _ hupsert).bind fun _ => ?_
    refine (asks_request (hsound _)).bind fun _ => ?_
    refine (asks_request (hsound _)).bind fun _ => ?_
    exact (asks_request (hannounce _)).bind fun _ => asks_pure
  · exact asks_pure

variable {o : Shared}

/-- The phase is found from what is beyond the occurrence. -/
theorem refresh_past (s : Session) (alarm : Option Alarm) (now : Instant) (h : o.Past s.user i) :
    (s.refresh alarm now).Ensures (Shared.Meets p) (fun res o' => o'.Past s.user i ∧
      ∀ phase, res = .ok phase → o'.Informed → phase ≠ .active i) o := by
  unfold refresh
  split
  · exact ⟨h, by rintro phase ⟨⟩⟩
  · next next hnext =>
    unfold findPhase
    rw [ensures_bind, ensures_request_bind]
    intro reply o₁ h₁
    rw [ensures_request_bind]
    intro ringing o₂ h₂
    rw [ensures_pure, ensures_request_bind]
    intro _ o₃ h₃
    have hphase : o₃.Informed → (AckPolicy.ofSettings s.settings).phase next
        (Wakeup.newest (inTime s.settings.writeTimeout reply).toOption.join s.unsaved.getLast?)
        ringing now ≠ .active i := by
      intro hreads
      have hread := (((hreads.of_meets h₃).1.of_meets h₂).1.of_meets h₁).2
      obtain ⟨v, rfl, hv⟩ := Shared.isBeyond_of_latest h₁ h.acknowledged hread
      obtain ⟨w, hw, hbeyond⟩ := hv.newest s.unsaved.getLast?
      show (AckPolicy.ofSettings s.settings).phase next (Wakeup.newest (some v) _) ringing now ≠ _
      rw [hw]
      exact hbeyond.phase_ne _ next ringing now
    rw [ensures_pure]
    refine ⟨?_, ?_⟩
    · refine ((h.of_meets h₁ fun _ => ?_).of_meets h₂ fun _ => ?_).of_meets h₃ fun hs => ?_
      · rintro ⟨⟩
      · rintro ⟨⟩
      · exact fun heq => hphase hs (Request.show.inj heq)
    · rintro phase ⟨⟩
      exact hphase

theorem follow_past (s : Session) (alarm : Option Alarm) (now : Instant) (h : o.Past s.user i) :
    (s.follow alarm now).Ensures (Shared.Meets p) (fun res o' => o'.Past s.user i ∧
      ∀ report, res.1 = .ok report → o'.Informed → report.phase ≠ .active i) o := by
  unfold follow
  split
  · exact ⟨h, by rintro report ⟨⟩⟩
  · next d scheduler hd =>
    have hact : (act { s with scheduler } d).Asks (· ≠ Request.show (.active i)) := by
      refine act_asks _ d ?_ ?_ ?_ ?_ <;> intros <;> rintro ⟨⟩
    rw [ensures_bind]
    refine ((h.ensures hact).and (act_ensures _ d)).mono ?_
    rintro s' o₁ ⟨h₁, ws, rfl⟩
    have hlook := refresh_past (p := p) (keeping { s with scheduler } ws) alarm now h₁
    rw [ensures_bind]
    refine hlook.mono ?_
    rintro res o₂ ⟨h₂, hres⟩
    split
    · exact ⟨h₂, by rintro report ⟨⟩⟩
    · refine ⟨h₂, ?_⟩
      rintro report ⟨⟩
      exact hres _ rfl

/-- A tick that is told the latest wake-up neither finds the occurrence active nor shows it so. -/
theorem tick_past (s : Session) (now : Instant) (h : o.Past s.user i) :
    (s.tick now).Ensures (Shared.Meets p) (fun res o' => o'.Past s.user i ∧
      ∀ report, res.1 = .ok report → o'.Informed → report.phase ≠ .active i) o := by
  have hsave : (saveAll (s.keeping []) s.unsaved).Asks (· ≠ Request.show (.active i)) :=
    saveAll_asks _ _ fun _ _ => by rintro ⟨⟩
  unfold tick
  rw [ensures_bind]
  refine ((h.ensures hsave).and s.retry_ensures).mono ?_
  rintro s' o₁ ⟨h₁, ws, rfl⟩
  rw [ensures_request_bind]
  intro reply o₂ h₂
  have h₂' : o₂.Past s.user i := h₁.of_meets h₂ fun _ => by rintro ⟨⟩
  split
  · exact ⟨h₂', by rintro report ⟨⟩⟩
  · exact (s.keeping ws).follow_past _ now h₂'

/-! ## The theorem -/

/-- Once a call has acknowledged an occurrence, a tick that starts afterwards, and is not refused
the latest wake-up, neither reports the occurrence as active nor shows it so. That holds whatever
others do while the call, or the tick, is under way or in between, however all the requests fare,
and whatever the session has still to save. -/
theorem stays_acknowledged (a : Acknowledger) (s : Session) (world : World) (T : Instant)
    (ack : Acknowledgment) (now : Instant) (callTurns tickTurns : List Turn)
    (between : List Incident) (w : Wakeup) (huser : s.user = a.user) :
    let call := (a.acknowledge T ack).runAmid callTurns ⟨world, []⟩
    let tick := (s.tick now).runAmid tickTurns ⟨call.2.world.afterAll between, []⟩
    call.1 = .ok w → (∀ e ∈ tick.2.exchanges, e.isFailedRead = false) →
      (∀ report, tick.1.1 = .ok report → report.phase ≠ .active T) ∧
        ∀ e ∈ tick.2.exchanges, e.request ≠ .show (.active T) := by
  intro call tick hcall hreads
  have hack : call.2.world.wakeups.records.Acknowledges a.user T :=
    (a.acknowledge_acknowledges T ack ⟨world, []⟩).runAmid (p := fun _ => True) trivial
      (fun _ _ => trivial) w hcall
  have hpast : Shared.Past s.user T ⟨call.2.world.afterAll between, []⟩ := by
    refine ⟨?_, fun _ e he => absurd he List.not_mem_nil⟩
    rw [huser]
    exact World.acknowledges_afterAll between hack
  obtain ⟨hafter, hreport⟩ := (s.tick_past now hpast).runAmid (p := fun _ => True) trivial
    (fun _ (_ : _ ∈ tickTurns) => trivial)
  exact ⟨fun report h => hreport report h hreads, hafter.unshown hreads⟩

/-- Midnight at 05:30 east rings while the file cannot be written, and is acknowledged with a photo.
Others start the alarm again, and the next tick is given up when it tries to save the wake-up that
it still has to save; midnight is not shown as active again. -/
theorem stays_acknowledged_midnight :
    let midnight : Instant := ⟨1781116200, 0, by decide, by decide, by decide, by decide⟩
    let now : Instant := ⟨1781116205, 0, by decide, by decide, by decide, by decide⟩
    let world : World :=
      .new ⟨"config", ⟨.defaults, [⟨"ada", ⟨0, 0⟩⟩]⟩, none⟩ ⟨"wakeups", .empty, none⟩
    let first := ((new "ada" (.fixed 19800) .defaults).tick midnight).runAmid
      [.undisturbed, .undisturbed, ⟨[], .unwritten .isDirectory⟩] ⟨world, []⟩
    let call := ((Acknowledger.new "ada" .defaults).acknowledge midnight
      ⟨now, some "photo"⟩).runAmid [] ⟨first.2.world, []⟩
    let tick := (first.1.2.tick now).runAmid [⟨[], .givenUp .untouched⟩]
      ⟨call.2.world.afterAll [.request (.sound .playAlarm) .answered], []⟩
    (∃ e ∈ first.2.exchanges, e.request = .show (.active midnight)) ∧
      call.1 = .ok ⟨midnight, some ⟨now, some "photo"⟩⟩ ∧
      tick.1.2.unsaved = [.pending midnight] ∧ tick.2.world.player.isRinging = true ∧
      ∀ e ∈ tick.2.exchanges, e.request ≠ .show (.active midnight) := by
  intro midnight now world
  dsimp only
  refine ⟨by decide +kernel, by decide +kernel, by decide +kernel, by decide +kernel, ?_⟩
  exact (stays_acknowledged (.new "ada" .defaults) _ _ _ _ _ [] _ _
    ⟨midnight, some ⟨now, some "photo"⟩⟩ (by decide +kernel) (by decide +kernel)
    (by decide +kernel)).2

end Session

end Reveille
