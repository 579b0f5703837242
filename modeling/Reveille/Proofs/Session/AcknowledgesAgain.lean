import Mathlib.Control.Monad.Basic
import Reveille.Proofs.Records.History
import Reveille.Proofs.Session.Sharing
import Reveille.Session.Acknowledger
import Reveille.Session.Tick

/-!
# Acknowledging again

A call that acknowledges the occurrence which fired last, and fails because its wake-up cannot be
saved, may be made again. What the second call finds depends on what became of the upsert of the
first (`Fate.joins`) : where the wake-up has not been joined to the records, the second call is as
good as a first one; where it has, by an upsert that was given up too late, the occurrence counts as
acknowledged and the second call is refused, although the first one has not silenced the alarm
(`Acknowledger.acknowledges_again`, `Acknowledger.refused_again`).

What is known of the surroundings meanwhile is that `World.Stands` : which occurrence fired last,
that there is no record of a later one, and what its record says. Incidents that neither let an
occurrence fire nor save anything newer (`Incident.Spares`) leave that as it is.
-/

namespace Reveille

open Activity

/-! ## What the record says -/

namespace Records

variable {rs : Records} {user : String} {i : Instant} {w : Wakeup}

/-- What the record of an occurrence says, that it is pending if there is none. -/
def standing (rs : Records) (user : String) (i : Instant) : Wakeup :=
  (rs.find? user i).getD (.pending i)

theorem joined_eq (rs : Records) (user : String) (w : Wakeup) :
    rs.joined user w = (rs.standing user w.alarmInstant).merge w := by
  unfold joined standing
  cases rs.find? user w.alarmInstant <;> rfl

theorem standing_merge (rs : Records) (user : String) (w : Wakeup) :
    (rs.merge user w).standing user w.alarmInstant = (rs.standing user w.alarmInstant).merge w := by
  rw [← joined_eq]
  unfold standing joined
  rw [find?_merge rs ⟨user, w⟩, if_pos ⟨rfl, rfl⟩]
  cases rs.find? user w.alarmInstant <;> rfl

theorem standing_merge_of_ne {user' : String} (h : ¬ Record.IsOf ⟨user', w⟩ user i) :
    (rs.merge user' w).standing user i = rs.standing user i := by
  unfold standing
  rw [find?_merge rs ⟨user', w⟩, if_neg h]

end Records

/-! ## The occurrence that fired last -/

/-- The occurrence of the wake-up fired last, the user has no record of a later one, and the
wake-up is what its record says. -/
structure World.Stands (world : World) (user : String) (w : Wakeup) : Prop where
  fired : world.fired = some w.alarmInstant
  newest : ∀ i v, world.wakeups.records.find? user i = some v → i ≤ w.alarmInstant
  record : world.wakeups.records.standing user w.alarmInstant = w

/-- No occurrence fires, and nothing of the user is saved that is later than an occurrence or
acknowledges it. -/
def Incident.Spares (user : String) (T : Instant) : Incident → Prop
  | .request (.fire _) _ => False
  | .request (.upsert user' w) _ =>
    user' = user → w.alarmInstant < T ∨ w = .pending T
  | _ => True

/-- Upserts that meet this fate leave the wake-up joined to the records. -/
def Fate.joins : Fate → Bool
  | .answered => true
  | .givenUp .merged => true
  | .givenUp .written => true
  | _ => false

theorem World.records_upsert (store : WakeupStore) (user : String) (w : Wakeup) (fate : Fate) :
    (World.upsert store user w fate).2.records =
      if fate.joins then store.records.merge user w else store.records := by
  cases fate with
  | answered => rfl
  | down reason => rfl
  | unwritten fault =>
    dsimp only [upsert]
    rw [store.upsert_unwritten user w fault]
    rfl
  | givenUp stage => cases stage <;> rfl

namespace World.Stands

variable {world : World} {user : String} {w v : Wakeup}

theorem of_latest? (hfired : world.fired = some w.alarmInstant)
    (h : world.wakeups.latest? user = some w) : world.Stands user w := by
  obtain ⟨hw, hnewest⟩ := Records.find?_latest? h
  refine ⟨hfired, hnewest, ?_⟩
  unfold Records.standing
  rw [hw]
  rfl

/-- Joining a wake-up of the occurrence, or of an earlier one, changes what its record says at most
by an acknowledgment. -/
theorem upsert (h : world.Stands user w) (user' : String) (v : Wakeup) (fate : Fate)
    (hv : user' = user → v.alarmInstant ≤ w.alarmInstant) :
    (world.answer fate (.upsert user' v)).2.Stands user
      (if fate.joins ∧ Record.IsOf ⟨user', v⟩ user w.alarmInstant then w.merge v else w) := by
  have hinstant : (if fate.joins ∧ Record.IsOf ⟨user', v⟩ user w.alarmInstant then w.merge v
      else w).alarmInstant = w.alarmInstant := by
    split <;> rfl
  obtain ⟨hfired, hnewest, hrecord⟩ := h
  refine ⟨?_, fun i u hu => ?_, ?_⟩
  · rw [hinstant]
    exact hfired
  · rw [hinstant]
    change (World.upsert world.wakeups user' v fate).2.records.find? user i = some u at hu
    rw [World.records_upsert] at hu
    split at hu
    · rw [Records.find?_merge _ ⟨user', v⟩] at hu
      split at hu
      · next hof => exact hof.2 ▸ hv hof.1
      · exact hnewest i u hu
    · exact hnewest i u hu
  · rw [hinstant]
    show (World.upsert world.wakeups user' v fate).2.records.standing user w.alarmInstant = _
    rw [World.records_upsert]
    by_cases hjoins : fate.joins = true
    · by_cases hof : Record.IsOf ⟨user', v⟩ user w.alarmInstant
      · rw [if_pos hjoins, if_pos ⟨hjoins, hof⟩]
        obtain ⟨rfl, hi⟩ := hof
        change v.alarmInstant = w.alarmInstant at hi
        rw [← hi, Records.standing_merge, hi, hrecord]
      · rw [if_pos hjoins, if_neg fun hboth => hof hboth.2, Records.standing_merge_of_ne hof,
          hrecord]
    · rw [if_neg hjoins, if_neg fun hboth => hjoins hboth.1, hrecord]

theorem merge_pending (w : Wakeup) (i : Instant) : w.merge (.pending i) = w := by
  unfold Wakeup.merge Wakeup.pending
  rw [Option.or_none]

theorem after (h : world.Stands user w) (incident : Incident)
    (hi : incident.Spares user w.alarmInstant) : (world.after incident).Stands user w := by
  cases incident with
  | request r fate =>
    cases r with
    | upsert user' v =>
      have hle : user' = user → v.alarmInstant ≤ w.alarmInstant := by
        intro hu
        obtain hlt | rfl := hi hu
        · exact fun hgt => Instant.lt_irrefl _ (Instant.lt_trans hlt hgt)
        · exact Instant.le_refl _
      have hafter := h.upsert user' v fate hle
      -- A pending wake-up that is joined adds nothing.
      have hsame : (if fate.joins ∧ Record.IsOf ⟨user', v⟩ user w.alarmInstant then w.merge v
          else w) = w := by
        split
        · next hboth =>
          obtain hlt | rfl := hi hboth.2.1
          · rw [hboth.2.2] at hlt
            exact absurd hlt (Instant.lt_irrefl _)
          · exact merge_pending w _
        · rfl
      rw [hsame] at hafter
      exact hafter
    | fire i => exact hi.elim
    | announce a =>
      unfold World.after World.answer
      dsimp only
      split <;> exact ⟨h.fired, h.newest, h.record⟩
    | _ => exact ⟨h.fired, h.newest, h.record⟩
  | _ => exact ⟨h.fired, h.newest, h.record⟩

theorem afterAll (h : world.Stands user w) {incidents : List Incident}
    (hi : ∀ i ∈ incidents, i.Spares user w.alarmInstant) :
    (world.afterAll incidents).Stands user w :=
  World.afterAll_keeps (p := fun world => world.Stands user w)
    (fun _ i hi h => h.after i hi) incidents hi h

/-- The latest record is the one of the occurrence, if it has one, or of an earlier occurrence. -/
theorem target_latest? (h : world.Stands user w) : Acknowledger.target w.alarmInstant
    (world.wakeups.records.latest? user) world.fired = .ok w := by
  obtain ⟨hfired, hnewest, hrecord⟩ := h
  rw [Acknowledger.target_eq_ok_iff]
  unfold Records.standing at hrecord
  cases hw : world.wakeups.records.find? user w.alarmInstant with
  | some v =>
    rw [hw] at hrecord
    obtain rfl : v = w := hrecord
    exact .inl ⟨Records.latest?_eq_some_iff.mpr ⟨hw, hnewest⟩, rfl⟩
  | none =>
    rw [hw] at hrecord
    exact .inr ⟨Records.forall_latest?_lt_iff.mpr ⟨hw, hnewest⟩, hfired, hrecord.symm⟩

end World.Stands

/-! ## Calls -/

/-- All that happens before the request spares the occurrence. -/
def Turn.Spares (user : String) (T : Instant) (turn : Turn) : Prop :=
  ∀ i ∈ turn.before, i.Spares user T

theorem Turn.spares_undisturbed (user : String) (T : Instant) :
    Turn.undisturbed.Spares user T := fun _ hi => absurd hi List.not_mem_nil

namespace Acknowledger

variable {s s' : Shared} {w : Wakeup} {T : Instant}

/-- What a call does once it has found the wake-up of its occurrence. -/
def proceed (a : Acknowledger) (w : Wakeup) (ack : Acknowledgment) :
    Activity (Except SessionFault Wakeup) :=
  match w.acknowledge ack with
  | .error refusal => pure (.error (.refused refusal))
  | .ok w => a.conclude w

/-- A call for the occurrence that fired last finds what its record says. -/
theorem runAmid_acknowledge (a : Acknowledger) {ack : Acknowledgment} (turns : List Turn)
    (hs : s.world.Stands a.user w) (hack : w.alarmInstant ≤ ack.instant)
    (hread : (turns.headD .undisturbed).fate.reply () = some (.ok ()))
    (hspares : (turns.headD .undisturbed).Spares a.user w.alarmInstant)
    (hspares' : (turns.tail.headD .undisturbed).Spares a.user w.alarmInstant) :
    ∃ s' : Shared, s'.world.Stands a.user w ∧
      s'.exchanges.map Exchange.request =
        s.exchanges.map Exchange.request ++ [.latest a.user, .lastFired] ∧
      (a.acknowledge w.alarmInstant ack).runAmid turns s =
        (a.proceed w ack).runAmid turns.tail.tail s' := by
  have hreply : ∀ latest : Option Wakeup,
      (turns.headD .undisturbed).fate.reply latest = some (.ok latest) := by
    intro latest
    cases hfate : (turns.headD .undisturbed).fate with
    | answered => rfl
    | unwritten fault => rfl
    | down reason =>
      rw [hfate] at hread
      cases hread
    | givenUp stage =>
      rw [hfate] at hread
      cases hread
  let s₁ := (s.meet (turns.headD .undisturbed) (.latest a.user)).2
  let s₂ := (s₁.meet (turns.tail.headD .undisturbed) .lastFired).2
  have h₁ : s₁.world.Stands a.user w := hs.afterAll hspares
  have h₂ : s₂.world.Stands a.user w := h₁.afterAll hspares'
  have hlatest : ∀ f : Except StoreFault (Option Wakeup) → Activity (Except SessionFault Wakeup),
      (a.latest >>= f).runAmid turns s =
        (f (.ok (s₁.world.wakeups.records.latest? a.user))).runAmid turns.tail s₁ := by
    intro f
    show (f (inTime a.limit ((turns.headD .undisturbed).fate.reply _))).runAmid turns.tail s₁ = _
    rw [hreply]
    rfl
  have htarget : target w.alarmInstant (s₁.world.wakeups.records.latest? a.user)
      (s₁.meet (turns.tail.headD .undisturbed) .lastFired).1 = .ok w := by
    show target w.alarmInstant _ s₂.world.fired = .ok w
    rw [h₂.fired, ← h₁.fired]
    exact h₁.target_latest?
  refine ⟨s₂, h₂, ?_, ?_⟩
  · show ((s.exchanges ++ [_]) ++ [_]).map Exchange.request = _
    rw [List.append_assoc, List.map_append]
    rfl
  · unfold acknowledge
    rw [if_neg hack, hlatest]
    dsimp only
    rw [runAmid_request_bind, htarget]
    rfl

/-- A call that cannot save its wake-up fails, and leaves it joined to the records if the upsert
does. -/
theorem runAmid_conclude (a : Acknowledger) (ack : Acknowledgment) (turns : List Turn)
    (hs : s.world.Stands a.user (.pending T))
    (hspares : (turns.headD .undisturbed).Spares a.user T)
    (hwrite : (turns.headD .undisturbed).fate ≠ .answered) :
    (∃ fault, ((a.conclude ⟨T, some ack⟩).runAmid turns s).1 = .error (.store fault)) ∧
      ((a.conclude ⟨T, some ack⟩).runAmid turns s).2.world.Stands a.user
        (if (turns.headD .undisturbed).fate.joins then ⟨T, some ack⟩ else .pending T) := by
  generalize hturn : turns.headD .undisturbed = turn at *
  have hfault : ∃ fault,
      inTime a.limit (s.meet turn (.upsert a.user ⟨T, some ack⟩)).1 = .error fault := by
    unfold Shared.meet
    cases hfate : turn.fate with
    | answered => exact absurd hfate hwrite
    | down reason => exact ⟨_, rfl⟩
    | unwritten fault => exact ⟨_, rfl⟩
    | givenUp stage => exact ⟨_, rfl⟩
  obtain ⟨fault, hfault⟩ := hfault
  have hrun : (a.conclude ⟨T, some ack⟩).runAmid turns s =
      (.error (.store fault), (s.meet turn (.upsert a.user ⟨T, some ack⟩)).2) := by
    unfold conclude
    rw [runAmid_request_bind, hturn, hfault]
    rfl
  rw [hrun]
  refine ⟨⟨fault, rfl⟩, ?_⟩
  have hafter := (hs.afterAll hspares).upsert a.user ⟨T, some ack⟩ turn.fate
    fun _ => Instant.le_refl T
  have hof : Record.IsOf ⟨a.user, ⟨T, some ack⟩⟩ a.user T := ⟨rfl, rfl⟩
  simp only [Wakeup.pending, hof, and_true] at hafter
  exact hafter

/-- A call that saves its wake-up returns it as it is, and has gone back to the silent loop last. -/
theorem conclude_ensures (a : Acknowledger) {ack : Acknowledgment}
    (hs : s.world.Stands a.user (.pending T)) :
    (a.conclude ⟨T, some ack⟩).Ensures
      (Shared.Meets fun turn => turn.Spares a.user T ∧ turn.fate = .answered)
      (fun res s' => res = .ok ⟨T, some ack⟩ ∧ s'.world.player.playing = some .silent) s := by
  unfold conclude
  rw [ensures_request_bind]
  rintro reply s₁ ⟨turn, ⟨hspares, hfate⟩, hm⟩
  have hjoined := Records.joined_eq (s.world.afterAll turn.before).wakeups.records a.user
    ⟨T, some ack⟩
  have hrecord : (s.world.afterAll turn.before).wakeups.records.standing a.user T = .pending T :=
    (hs.afterAll hspares).record
  rw [hrecord] at hjoined
  have hreply : reply = some (.ok ⟨T, some ack⟩) := by
    cases hm
    show (World.upsert _ a.user _ turn.fate).1 = _
    rw [hfate]
    exact congrArg (fun w => some (Except.ok w)) hjoined
  rw [hreply]
  dsimp only [inTime]
  unfold silence
  rw [ensures_bind, ensures_request_bind]
  intro _ s₂ _
  rw [ensures_request_bind]
  rintro _ s₃ ⟨turn, ⟨-, hfate⟩, hm⟩
  cases hm
  refine ⟨rfl, ?_⟩
  show (World.sound _ .playSilent turn.fate).2.playing = some .silent
  rw [hfate]
  rfl

/-! ## The theorem -/

/-- A call for the occurrence that fired last, whose record is missing or pending, cannot save its
wake-up. If the upsert has not left the wake-up joined to the records, a later call that is answered
acknowledges the occurrence and goes back to the silent loop. If it has, the later call is refused
after its reads, and silences nothing. -/
theorem acknowledges_again (a : Acknowledger) (world : World) (T : Instant)
    (first second : Acknowledgment) (read look write : Turn) (between : List Incident)
    (turns : List Turn) (hstands : world.Stands a.user (.pending T))
    (hfirst : T ≤ first.instant) (hsecond : first.instant ≤ second.instant)
    (hspares : ∀ turn ∈ [read, look, write], turn.Spares a.user T)
    (hread : read.fate.reply () = some (.ok ())) (hwrite : write.fate ≠ .answered)
    (hbetween : ∀ i ∈ between, i.Spares a.user T)
    (hturns : ∀ turn ∈ turns, turn.Spares a.user T ∧ turn.fate = .answered) :
    let attempt := (a.acknowledge T first).runAmid [read, look, write] ⟨world, []⟩
    let retry := (a.acknowledge T second).runAmid turns ⟨attempt.2.world.afterAll between, []⟩
    (∃ fault, attempt.1 = .error (.store fault)) ∧
      (write.fate.joins = false → retry.1 = .ok ⟨T, some second⟩ ∧
        retry.2.world.player.playing = some .silent) ∧
      (write.fate.joins = true → retry.1 = .error (.refused (.alreadyAcknowledged T)) ∧
        retry.2.exchanges.map Exchange.request = [.latest a.user, .lastFired]) := by
  intro attempt retry
  -- The first call finds the wake-up pending and fails to save it.
  obtain ⟨s₁, h₁, -, hrun₁⟩ := a.runAmid_acknowledge [read, look, write] (s := ⟨world, []⟩)
    hstands hfirst hread (hspares read (by simp)) (hspares look (by simp))
  obtain ⟨⟨fault, hfault⟩, hafter⟩ := a.runAmid_conclude first [write] h₁
    (hspares write (by simp)) hwrite
  have hattempt : attempt = (a.conclude ⟨T, some first⟩).runAmid [write] s₁ := hrun₁
  rw [← hattempt] at hfault hafter
  -- The second call finds what the upsert of the first has left.
  have hsecond := Instant.le_trans hfirst hsecond
  have hhead := Turn.headD_of_forall (p := fun turn => turn.Spares a.user T ∧ turn.fate = .answered)
    ⟨Turn.spares_undisturbed _ _, rfl⟩ hturns
  have hnext := Turn.headD_of_forall (p := fun turn => turn.Spares a.user T ∧ turn.fate = .answered)
    ⟨Turn.spares_undisturbed _ _, rfl⟩ fun turn h => hturns turn (List.mem_of_mem_tail h)
  have hread₂ : (turns.headD .undisturbed).fate.reply () = some (.ok ()) := by
    rw [hhead.2]
    rfl
  refine ⟨⟨fault, hfault⟩, fun hjoins => ?_, fun hjoins => ?_⟩
  · rw [show ([write].headD .undisturbed) = write from rfl, hjoins] at hafter
    have hagain : World.Stands (attempt.2.world.afterAll between) a.user (.pending T) :=
      hafter.afterAll hbetween
    obtain ⟨s₂, h₂, -, hrun₂⟩ := a.runAmid_acknowledge turns
      (s := ⟨attempt.2.world.afterAll between, []⟩) hagain hsecond hread₂ hhead.1 hnext.1
    have hretry : retry = (a.conclude ⟨T, some second⟩).runAmid turns.tail.tail s₂ := hrun₂
    rw [hretry]
    refine (a.conclude_ensures h₂).runAmid ⟨Turn.spares_undisturbed _ _, rfl⟩ fun turn h => ?_
    exact hturns turn (List.mem_of_mem_tail (List.mem_of_mem_tail h))
  · rw [show ([write].headD .undisturbed) = write from rfl, hjoins] at hafter
    have hagain : World.Stands (attempt.2.world.afterAll between) a.user ⟨T, some first⟩ :=
      hafter.afterAll hbetween
    obtain ⟨s₂, -, hrequests, hrun₂⟩ := a.runAmid_acknowledge turns
      (s := ⟨attempt.2.world.afterAll between, []⟩) hagain hsecond hread₂ hhead.1 hnext.1
    have hretry : retry = (.error (.refused (.alreadyAcknowledged T)), s₂) := hrun₂
    rw [hretry]
    exact ⟨rfl, hrequests⟩

/-- Midnight at 05:30 east rings, and is acknowledged while the file cannot be written. Others save
the pending wake-up again, and the second call acknowledges midnight and silences the alarm. -/
theorem acknowledges_again_midnight :
    let midnight : Instant := ⟨1781116200, 0, by decide, by decide, by decide, by decide⟩
    let now : Instant := ⟨1781116205, 0, by decide, by decide, by decide, by decide⟩
    let rings : World := (((Session.new "ada" (.fixed 19800) .defaults).tick midnight).runAmid []
      ⟨.new ⟨"config", ⟨.defaults, [⟨"ada", ⟨0, 0⟩⟩]⟩, none⟩ ⟨"wakeups", .empty, none⟩, []⟩).2.world
    let ada := Acknowledger.new "ada" .defaults
    let attempt := (ada.acknowledge midnight ⟨now, none⟩).runAmid
      [.undisturbed, .undisturbed, ⟨[], .unwritten .isDirectory⟩] ⟨rings, []⟩
    let retry := (ada.acknowledge midnight ⟨now, some "photo"⟩).runAmid []
      ⟨attempt.2.world.afterAll [.request (.upsert "ada" (.pending midnight)) .answered], []⟩
    attempt.2.world.player.isRinging = true ∧ (∃ fault, attempt.1 = .error (.store fault)) ∧
      retry.1 = .ok ⟨midnight, some ⟨now, some "photo"⟩⟩ ∧
      retry.2.world.player.playing = some .silent := by
  intro midnight now
  dsimp only
  have hagain := acknowledges_again (.new "ada" .defaults)
    (((Session.new "ada" (.fixed 19800) .defaults).tick midnight).runAmid []
      ⟨.new ⟨"config", ⟨.defaults, [⟨"ada", ⟨0, 0⟩⟩]⟩, none⟩ ⟨"wakeups", .empty, none⟩, []⟩).2.world
    midnight ⟨now, none⟩ ⟨now, some "photo"⟩ .undisturbed .undisturbed
    ⟨[], .unwritten .isDirectory⟩ [.request (.upsert "ada" (.pending midnight)) .answered] []
    (.of_latest? (by decide +kernel) (by decide +kernel)) (by decide) (by decide)
    (by simp [Turn.Spares, Turn.undisturbed]) rfl (by decide)
    (by simp [Incident.Spares]) (by simp)
  exact ⟨by decide +kernel, hagain.1, hagain.2.1 rfl⟩

/-- Midnight at 05:30 east rings, and is acknowledged by a call whose upsert is given up after the
wake-up has been joined to the records. A second call, which is answered, is refused, and the alarm
goes on. -/
theorem refused_again :
    let midnight : Instant := ⟨1781116200, 0, by decide, by decide, by decide, by decide⟩
    let now : Instant := ⟨1781116205, 0, by decide, by decide, by decide, by decide⟩
    let rings : World := (((Session.new "ada" (.fixed 19800) .defaults).tick midnight).runAmid []
      ⟨.new ⟨"config", ⟨.defaults, [⟨"ada", ⟨0, 0⟩⟩]⟩, none⟩ ⟨"wakeups", .empty, none⟩, []⟩).2.world
    let ada := Acknowledger.new "ada" .defaults
    let attempt := (ada.acknowledge midnight ⟨now, none⟩).runAmid
      [.undisturbed, .undisturbed, ⟨[], .givenUp .merged⟩] ⟨rings, []⟩
    let retry := (ada.acknowledge midnight ⟨now, none⟩).runAmid [] ⟨attempt.2.world, []⟩
    rings.wakeups.latest? "ada" = some (.pending midnight) ∧ rings.fired = some midnight ∧
      attempt.1 = .error (.store (.timedOut 2000)) ∧
      retry.1 = .error (.refused (.alreadyAcknowledged midnight)) ∧
      retry.2.world.player.isRinging = true := by
  decide +kernel

end Acknowledger

end Reveille
