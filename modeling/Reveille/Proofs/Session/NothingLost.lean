import Reveille.Proofs.Session.Kept
import Reveille.Proofs.Session.RingsOnce

/-!
# Nothing that has rung is lost

However requests fare, an occurrence that has rung has a record or is still to be saved, and no
record appears but of occurrences that have rung (`nothing_lost`). Wake-ups reach the records on
three ways : when an occurrence rings, when a tick tries again to save one, and when the user
acknowledges one whose record is missing. The invariant `Kept` goes through each of them.
-/

namespace Reveille

open Activity

/-! ## Ticks -/

namespace Session

variable {initial : Records} {is : List Instant} {later : List Wakeup} {o : Watch}

/-- To save a wake-up leaves it to be saved later or gives it a record. -/
theorem save_kept (s : Session) (w : Wakeup)
    (h : Kept s.user initial is (s.unsaved ++ w :: later) o.world) :
    (s.save w).Ensures Watch.Meets
      (fun s' o' => Kept s.user initial is (s'.unsaved ++ later) o'.world) o := by
  have hw : w.alarmInstant ∈ is := h.mem_rung (by simp)
  unfold save
  rw [ensures_request_bind]
  intro x o' hm
  obtain ⟨hf, hr | ⟨hr, hx⟩⟩ := Watch.meets_upsert hm
  · have h' := h.merge (.inl hw) hr hf
    split
    · refine h'.drop ?_
      rw [hr]
      exact Records.holds_merge.mpr (.inr ⟨rfl, rfl⟩)
    · show Kept _ _ _ (s.unsaved ++ [w] ++ later) _
      rwa [List.append_assoc]
  · have h' := h.congr hr hf
    split
    · next stored => exact absurd rfl (hx stored)
    · show Kept _ _ _ (s.unsaved ++ [w] ++ later) _
      rwa [List.append_assoc]

theorem saveAll_kept (s : Session) (ws : List Wakeup)
    (h : Kept s.user initial is (s.unsaved ++ ws) o.world) :
    (s.saveAll ws).Ensures Watch.Meets
      (fun s' o' => Kept s.user initial is s'.unsaved o'.world) o := by
  induction ws generalizing s o with
  | nil => rwa [List.append_nil] at h
  | cons w ws ih =>
    unfold saveAll
    rw [ensures_bind]
    refine ((s.save_kept w h).and (s.save_ensures w)).mono ?_
    rintro s' o' ⟨h', us, rfl⟩
    exact ih (s.keeping us) h'

theorem retry_kept (s : Session) (h : Kept s.user initial is s.unsaved o.world) :
    s.retry.Ensures Watch.Meets
      (fun s' o' => Kept s.user initial is s'.unsaved o'.world) o :=
  saveAll_kept (s.keeping []) s.unsaved h

/-- An occurrence that rings has rung from then on, and is saved or still to be saved. -/
theorem ring_kept (s : Session) (trigger : Instant)
    (h : Kept s.user initial is s.unsaved o.world) :
    (s.ring trigger).Ensures Watch.Meets
      (fun s' o' => Kept s.user initial (is ++ [trigger]) s'.unsaved o'.world) o := by
  unfold ring
  rw [ensures_request_bind]
  intro _ o₁ h₁
  obtain ⟨hrecords, hfired⟩ := Watch.meets_fire h₁
  have hfire : Kept s.user initial (is ++ [trigger]) (s.unsaved ++ [.pending trigger]) o₁.world :=
    h.fire (congrArg WakeupStore.records hrecords) hfired
  rw [ensures_bind]
  refine (s.save_kept _ hfire).mono fun s' o₂ hsaved => ?_
  rw [List.append_nil] at hsaved
  rw [ensures_request_bind]
  intro _ o₃ h₃
  rw [ensures_request_bind]
  intro _ o₄ h₄
  rw [ensures_request_bind]
  intro _ o₅ h₅
  exact Watch.kept_of_meets h₅ trivial
    (Watch.kept_of_meets h₄ trivial (Watch.kept_of_meets h₃ trivial hsaved))

theorem act_kept (s : Session) (d : Decision) (h : Kept s.user initial is s.unsaved o.world) :
    (s.act d).Ensures Watch.Meets
      (fun s' o' => Kept s.user initial (is ++ d.ringing?.toList) s'.unsaved o'.world) o := by
  unfold act
  split
  · next trigger hd =>
    rw [hd]
    exact s.ring_kept trigger h
  · next hd =>
    rw [hd, Option.toList_none, List.append_nil]
    exact h

theorem refresh_kept (s : Session) (alarm : Option Alarm) (now : Instant) {user : String}
    {us : List Wakeup} (h : Kept user initial is us o.world) :
    (s.refresh alarm now).Ensures Watch.Meets
      (fun _ o' => Kept user initial is us o'.world) o :=
  Watch.kept_of_asks (s.refresh_asks alarm now trivial trivial fun _ => trivial) h

theorem follow_kept (s : Session) (alarm : Option Alarm) (now : Instant)
    (h : Kept s.user initial is s.unsaved o.world) :
    (s.follow alarm now).Ensures Watch.Meets
      (fun res o' => Kept s.user initial (is ++ (reported? res.1).toList) res.2.unsaved o'.world)
      o := by
  unfold follow
  split
  · show Kept _ _ (is ++ []) _ _
    rwa [List.append_nil]
  · next d scheduler hd =>
    rw [ensures_bind]
    refine ((act_kept { s with scheduler } d h).and (act_ensures _ d)).mono ?_
    rintro s' o₁ ⟨h₁, ws, rfl⟩
    -- The phase is found, so what has rung is reported.
    obtain ⟨next, hnext⟩ := exists_nextTrigger hd ws
    rw [ensures_bind]
    refine ((refresh_kept _ alarm now h₁).and (refresh_ensures hnext)).mono ?_
    rintro res o₂ ⟨h₂, phase, rfl⟩
    exact h₂

theorem tick_kept (s : Session) (now : Instant) (h : Kept s.user initial is s.unsaved o.world) :
    (s.tick now).Ensures Watch.Meets
      (fun res o' => Kept s.user initial (is ++ (reported? res.1).toList) res.2.unsaved o'.world)
      o := by
  unfold tick
  rw [ensures_bind]
  refine ((s.retry_kept h).and s.retry_ensures).mono ?_
  rintro s' o₁ ⟨h₁, ws, rfl⟩
  rw [ensures_request_bind]
  intro reply o₂ h₂
  have h₃ := Watch.kept_of_meets h₂ trivial h₁
  split
  · show Kept _ _ (is ++ []) _ _
    rwa [List.append_nil]
  · exact (s.keeping ws).follow_kept _ now h₃

end Session

/-! ## Acknowledgments -/

namespace Acknowledger

variable {user : String} {initial : Records} {is : List Instant} {us : List Wakeup} {o : Watch}

theorem silence_kept (h : Kept user initial is us o.world) :
    silence.Ensures Watch.Meets (fun _ o' => Kept user initial is us o'.world) o :=
  Watch.kept_of_asks (silence_asks trivial trivial) h

/-- Only a wake-up is joined that has rung or has a record. -/
theorem conclude_kept (a : Acknowledger) {w : Wakeup} (h : Kept a.user initial is us o.world)
    (hw : w.alarmInstant ∈ is ∨ o.world.wakeups.records.Holds a.user w.alarmInstant) :
    (a.conclude w).Ensures Watch.Meets (fun _ o' => Kept a.user initial is us o'.world) o := by
  refine a.ensures_conclude fun x o₁ hm => ?_
  have h₁ : Kept a.user initial is us o₁.world := by
    obtain ⟨hf, hr | ⟨hr, -⟩⟩ := Watch.meets_upsert hm
    · exact h.merge hw hr hf
    · exact h.congr hr hf
  exact ⟨fun _ => h₁, fun _ _ => silence_kept h₁⟩

theorem acknowledge_kept (a : Acknowledger) (alarmInstant : Instant) (ack : Acknowledgment)
    (h : Kept a.user initial is us o.world) :
    (a.acknowledge alarmInstant ack).Ensures Watch.Meets
      (fun _ o' => Kept a.user initial is us o'.world) o := by
  refine a.ensures_acknowledge h fun x o₁ hm => ?_
  have h₁ := Watch.kept_of_meets hm trivial h
  refine ⟨fun _ => h₁, fun fired o₂ hm₂ => ?_⟩
  obtain ⟨hfired, rfl⟩ := Watch.meets_lastFired hm₂
  refine ⟨fun _ => h₁, fun latest hlatest _ hfound => a.conclude_kept h₁ ?_⟩
  obtain ⟨hrecord, hworld⟩ := Watch.meets_latest hm hlatest
  rcases hfound with hpending | ⟨-, hf⟩
  · have hheld := Records.holds_of_latest? (hrecord.symm.trans hpending)
    rw [hworld]
    exact .inr hheld
  · exact .inl (h₁.fired_mem _ (hfired.symm.trans hf))

end Acknowledger

/-! ## Courses -/

theorem Entry.ringing?_ticked (deed : Deed) (report : Except SessionFault TickReport)
    (notices : List Notice) : ringing? ⟨deed, .ticked report, notices⟩ = reported? report := by
  cases report <;> rfl

theorem kept_step (user : String) (initial : Records) (log : List Entry) (s : Scene)
    (deed : Deed) (fates : List Fate) (huser : s.session.user = user)
    (h : Kept user initial (rung log) s.session.unsaved s.world) :
    Kept user initial (rung (log ++ [(s.carryOut deed fates).1]))
      (s.carryOut deed fates).2.session.unsaved (s.carryOut deed fates).2.world := by
  subst huser
  rw [rung_concat]
  -- At any deed but a tick nothing rings.
  have hquiet : ∀ {world : World}, Kept s.session.user initial (rung log) s.session.unsaved world →
      Kept s.session.user initial (rung log ++ []) s.session.unsaved world := by
    intro world hw
    rwa [List.append_nil]
  cases deed with
  | tick now =>
    have hend := (s.session.tick_kept now (o := ⟨s.world, []⟩) h).runWith fates
    have hringing : (s.carryOut (.tick now) fates).1.ringing? =
        reported? ((s.session.tick now).runWith fates ⟨s.world, []⟩).1.1 :=
      Entry.ringing?_ticked _ _ _
    rw [hringing]
    exact hend
  | acknowledge alarmInstant ack =>
    exact hquiet ((Acknowledger.acknowledge_kept (.new s.session.user s.session.settings)
      alarmInstant ack (o := ⟨s.world, []⟩) h).runWith fates)
  | silence =>
    exact hquiet ((Acknowledger.silence_kept (o := ⟨s.world, []⟩) h).runWith fates)
  | setAlarms alarms => exact hquiet (h.congr rfl rfl)
  | listen stays => exact hquiet (h.congr rfl rfl)

theorem kept_run (user : String) (zone : Zone) (settings : Settings) (world : World)
    (course : List (Deed × List Fate)) :
    Kept user world.wakeups.records (rung ((Scene.start user zone settings world).run course).1)
      ((Scene.start user zone settings world).run course).2.session.unsaved
      ((Scene.start user zone settings world).run course).2.world := by
  have h : ((Scene.start user zone settings world).run course).2.session.user = user ∧
      Kept user world.wakeups.records (rung ((Scene.start user zone settings world).run course).1)
        ((Scene.start user zone settings world).run course).2.session.unsaved
        ((Scene.start user zone settings world).run course).2.world := by
    refine Scene.run_induction (motive := fun log s => s.session.user = user ∧
      Kept user world.wakeups.records (rung log) s.session.unsaved s.world) ?_ ?_ course
    · refine ⟨rfl, by simp [rung], fun i hi => hi, fun i hi => .inl hi, rfl, List.nil_sublist _, ?_⟩
      rintro i ⟨⟩
    · rintro log s deed fates ⟨huser, h⟩
      exact ⟨(s.adds_carryOut deed fates).2.trans huser,
        kept_step user _ log s deed fates huser h⟩
  exact h.2

/-! ## The theorem -/

/-- In every course of a session, however its requests fare : each occurrence that has rung has
a record of the user or is still to be saved. The keys of the user's records are those from
before the session and others of occurrences that have rung; the records of other users are as
they were. What is still to be saved are unacknowledged wake-ups of occurrences that have rung,
each at most once, in the order in which they rang. -/
theorem nothing_lost (user : String) (zone : Zone) (settings : Settings) (world : World)
    (course : List (Deed × List Fate)) :
    let log := ((Scene.start user zone settings world).run course).1
    let unsaved := ((Scene.start user zone settings world).run course).2.session.unsaved
    let records := ((Scene.start user zone settings world).run course).2.world.wakeups.records
    let initial := world.wakeups.records
    (∀ i ∈ rung log, records.Holds user i ∨ ∃ w ∈ unsaved, w.alarmInstant = i) ∧
      (∀ i, initial.Holds user i → records.Holds user i) ∧
      (∀ i, records.Holds user i → initial.Holds user i ∨ i ∈ rung log) ∧
      records.others user = initial.others user ∧
      unsaved.Sublist ((rung log).map .pending) ∧
      (unsaved.map Wakeup.alarmInstant).Nodup := by
  intro log unsaved records initial
  have h : Kept user initial (rung log) unsaved _ := kept_run user zone settings world course
  have hnodup : (rung log).Nodup := (ringsOnce_run user zone settings world course).nodup
  refine ⟨fun i hi => ?_, h.initial_held, h.origin, h.others_eq, h.unsaved_sublist, ?_⟩
  · exact (h.covered i hi).imp_right fun hi => ⟨_, hi, rfl⟩
  · have hsub := h.unsaved_sublist.map Wakeup.alarmInstant
    rw [List.map_map] at hsub
    have hid : (rung log).map (Wakeup.alarmInstant ∘ .pending) = rung log := List.map_id _
    rw [hid] at hsub
    exact hnodup.sublist hsub

/-- Midnight at 05:30 east rings while the file cannot be written, and is acknowledged before it
is saved : the acknowledgment has made its record, and the wake-up is still to be saved. -/
theorem nothing_lost_midnight :
    let midnight : Instant := ⟨1781116200, 0, by decide, by decide, by decide, by decide⟩
    let after : Instant := ⟨1781116205, 0, by decide, by decide, by decide, by decide⟩
    let world : World :=
      .new ⟨"config", ⟨.defaults, [⟨"ada", ⟨0, 0⟩⟩]⟩, none⟩ ⟨"wakeups", .empty, none⟩
    let course : List (Deed × List Fate) :=
      [(.tick midnight, [.answered, .answered, .unwritten .isDirectory]),
        (.acknowledge midnight ⟨after, none⟩, [])]
    let scene := ((Scene.start "ada" (.fixed 19800) .defaults world).run course).2
    let log := ((Scene.start "ada" (.fixed 19800) .defaults world).run course).1
    rung log = [midnight] ∧ scene.session.unsaved = [.pending midnight] ∧
      scene.world.wakeups.records.Holds "ada" midnight ∧
      scene.session.unsaved.Sublist ((rung log).map .pending) := by
  dsimp only
  refine ⟨by decide +kernel, by decide +kernel, by decide +kernel, ?_⟩
  exact (nothing_lost "ada" (.fixed 19800) .defaults _ _).2.2.2.2.1

end Reveille
