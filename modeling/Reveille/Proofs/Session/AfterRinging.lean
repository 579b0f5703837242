import Reveille.Proofs.Session.Verdict

/-!
# After an alarm has rung

A tick that lets an occurrence ring leaves it as the one that fired last, if nobody else lets one
fire meanwhile (`Session.tick_fires`). So the occurrence can be acknowledged, whether its record has
been saved or not, unless a later one has a record or it is acknowledged already. The alarm may ring
ahead of the occurrence, by the tolerance at most; but an acknowledgment that is dated before the
occurrence is refused, while the alarm rings on (`Acknowledger.acknowledges_what_rings`).
-/

namespace Reveille

open Activity

/-! ## The occurrence that fired last -/

/-- The request lets no occurrence fire. -/
def Request.FiresNothing : Request → Prop
  | .fire _ => False
  | _ => True

/-- The incident lets no occurrence fire. -/
def Incident.FiresNothing : Incident → Prop
  | .request r _ => r.FiresNothing
  | _ => True

/-- Before the request nothing fires. -/
def Turn.FiresNothing (turn : Turn) : Prop := ∀ i ∈ turn.before, i.FiresNothing

theorem World.fired_answer (world : World) (fate : Fate) {r : Request} (h : r.FiresNothing) :
    (world.answer fate r).2.fired = world.fired := by
  cases r with
  | fire i => exact h.elim
  | announce a =>
    unfold answer
    dsimp only
    split <;> rfl
  | _ => rfl

theorem World.fired_afterAll {world : World} {incidents : List Incident}
    (h : ∀ i ∈ incidents, i.FiresNothing) : (world.afterAll incidents).fired = world.fired := by
  refine World.afterAll_keeps (p := fun after => after.fired = world.fired)
    (fun after i hi hfired => ?_) incidents h rfl
  rw [← hfired]
  cases i with
  | request r fate => exact after.fired_answer fate hi
  | _ => rfl

namespace Shared

variable {s s' : Shared} {r : Request} {x : r.Result}

theorem fired_of_meets (hm : Meets Turn.FiresNothing s r x s') (hr : r.FiresNothing) :
    s'.world.fired = s.world.fired := by
  obtain ⟨turn, hturn, hm⟩ := hm
  cases hm
  exact (World.fired_answer _ turn.fate hr).trans (World.fired_afterAll hturn)

theorem fired_of_fire {p : Turn → Prop} {i : Instant} {y : Unit} (hm : Meets p s (.fire i) y s') :
    s'.world.fired = some i := by
  obtain ⟨turn, -, hm⟩ := hm
  cases hm
  rfl

/-- An activity that lets nothing fire leaves what fired last, if nobody else lets anything fire. -/
theorem fired_ensures {α : Type} {a : Activity α} {fired : Option Instant}
    (ha : a.Asks Request.FiresNothing) (h : s.world.fired = fired) :
    a.Ensures (Meets Turn.FiresNothing) (fun _ s' => s'.world.fired = fired) s :=
  ha.ensures (fun _ _ _ _ hr h hm => (fired_of_meets hm hr).trans h) h

end Shared

namespace Session

variable {o : Shared}

theorem ring_fires (s : Session) (T : Instant) : (s.ring T).Ensures
    (Shared.Meets Turn.FiresNothing) (fun _ o' => o'.world.fired = some T) o := by
  unfold ring
  rw [ensures_request_bind]
  intro _ o₁ h₁
  -- To fire comes first; nothing after it changes what fired last.
  refine Shared.fired_ensures ?_ (Shared.fired_of_fire h₁)
  refine (save_asks s _ fun _ _ => trivial).bind fun _ => ?_
  refine (asks_request trivial).bind fun _ => ?_
  refine (asks_request trivial).bind fun _ => ?_
  exact (asks_request trivial).bind fun _ => asks_pure

theorem act_fires (s : Session) (d : Decision) : (s.act d).Ensures
    (Shared.Meets Turn.FiresNothing)
    (fun _ o' => ∀ T, d.ringing? = some T → o'.world.fired = some T) o := by
  unfold act
  split
  · next i hi =>
    refine (s.ring_fires i).mono fun _ _ hfired T hT => ?_
    rw [hfired, ← hi, hT]
  · next hnone =>
    intro T hT
    rw [hnone] at hT
    cases hT

theorem follow_fires (s : Session) (alarm : Option Alarm) (now : Instant) :
    (s.follow alarm now).Ensures (Shared.Meets Turn.FiresNothing)
      (fun res o' => ∀ T, reported? res.1 = some T → o'.world.fired = some T) o := by
  unfold follow
  split
  · rintro T ⟨⟩
  next d scheduler _ =>
  rw [ensures_bind]
  refine (act_fires _ d).mono fun s' o₁ h₁ => ?_
  rw [ensures_bind]
  refine (Shared.fired_ensures (refresh_asks s' alarm now trivial trivial fun _ => trivial)
    rfl).mono fun res o₂ h₂ => ?_
  split
  · rintro T ⟨⟩
  · exact fun T hT => h₂.trans (h₁ T hT)

/-- A tick that reports an occurrence as ringing leaves it as the one that fired last. -/
theorem tick_fires (s : Session) (now : Instant) : (s.tick now).Ensures
    (Shared.Meets Turn.FiresNothing)
    (fun res o' => ∀ T, reported? res.1 = some T → o'.world.fired = some T) o := by
  unfold tick
  rw [ensures_bind]
  refine Ensures.of_forall fun s₁ o₁ => ?_
  rw [ensures_request_bind]
  intro reply o₂ _
  split
  · rintro T ⟨⟩
  · exact s₁.follow_fires _ now

/-- The surroundings are what a tick at `now` has left that reports the occurrence as ringing, while
nobody else lets one fire. -/
def LetsRing (s : Session) (now T : Instant) (rings : World) : Prop :=
  ∃ (world : World) (turns : List Turn), (∀ turn ∈ turns, turn.FiresNothing) ∧
    reported? ((s.tick now).runAmid turns ⟨world, []⟩).1.1 = some T ∧
    ((s.tick now).runAmid turns ⟨world, []⟩).2.world = rings

theorem LetsRing.fired {s : Session} {now : Instant} {rings : World} (h : s.LetsRing now T rings) :
    rings.fired = some T := by
  obtain ⟨world, turns, hturns, hreport, rfl⟩ := h
  exact (s.tick_fires now).runAmid (fun _ hi => absurd hi List.not_mem_nil) hturns T hreport

end Session

/-! ## Calls -/

/-- An acknowledgment of what fired last is awaited, unless a later occurrence has a record or it is
acknowledged. -/
theorem World.awaits_of_fired {world : World} {user : String} {T : Instant}
    (hfired : world.fired = some T) (hlatest : ∀ i, world.wakeups.records.Holds user i → i ≤ T)
    (hpending : ∀ w, world.wakeups.records.find? user T = some w → w.isAcknowledged = false) :
    world.Awaits user T := by
  refine ⟨hlatest, ?_⟩
  cases hfind : world.wakeups.records.find? user T with
  | none => exact .inr ⟨rfl, hfired⟩
  | some w =>
    left
    obtain ⟨rfl, -⟩ := Records.find?_eq_some_iff.mp hfind
    obtain ⟨i, acknowledgment⟩ := w
    cases acknowledgment with
    | none => rfl
    | some ack => cases hpending _ hfind

/-- To be told to stop and to play the silent loop ends the alarm, if the player hears one of it. -/
theorem World.isRinging_sound (player : Player) {stop silent : Fate}
    (h : stop.Reaches ∨ silent.Reaches) :
    (sound (sound player .stop stop).2 .playSilent silent).2.isRinging = false := by
  cases silent with
  | down reason =>
    have hstop := h.resolve_right fun hsilent => hsilent reason rfl
    cases stop with
    | down reason' => exact absurd rfl (hstop reason')
    | _ => rfl
  | _ => rfl

namespace Acknowledger

variable {T : Instant} {ack : Acknowledgment}

/-- A call that is answered by the stores acknowledges an occurrence whose acknowledgment is
awaited, and ends the alarm. -/
theorem acknowledge_runWith_awaited (a : Acknowledger) {world : World}
    (h : world.Awaits a.user T) (hdated : T ≤ ack.instant) (look stop silent : Fate) :
    let call := (a.acknowledge T ack).runWith [.answered, look, .answered, stop, silent] ⟨world, []⟩
    call.1 = .ok ⟨T, some ack⟩ ∧
      (stop.Reaches ∨ silent.Reaches → call.2.world.player.isRinging = false) := by
  have hread : inTime a.limit (Fate.answered.reply (world.wakeups.latest? a.user)) =
      .ok (world.wakeups.latest? a.user) := rfl
  have hwhole : Fate.IsWhole .answered := fun _ => rfl
  dsimp only
  rw [acknowledge_runWith, if_neg hdated, hread]
  dsimp only
  rw [refusal?_eq_none_iff.mpr h]
  dsimp only
  obtain ⟨fault, hfault, -⟩ | ⟨-, o, hrun, -, hplayer⟩ :=
    a.conclude_runWith ack h hwhole stop silent
  · cases hfault
  · rw [hrun]
    refine ⟨rfl, fun hreached => ?_⟩
    rw [hplayer]
    exact World.isRinging_sound _ hreached

/-- A call that is dated before its occurrence is refused at once. -/
theorem acknowledge_runWith_early (a : Acknowledger) (hearly : ack.instant < T)
    (fates : List Fate) (o : Watch) :
    (a.acknowledge T ack).runWith fates o = (.error (.refused (.notTriggered T)), o) := by
  unfold acknowledge
  rw [if_pos hearly]
  rfl

/-! ## The theorem -/

/-- When a tick of a session has reported an occurrence as ringing, and the user has no record of a
later one nor an acknowledged record of this one, a call that is dated at the occurrence or after it
acknowledges it, if the stores answer, and ends the alarm, if the player hears one of the two
commands. A call that is dated before the occurrence is refused and changes nothing. -/
theorem acknowledges_what_rings (s : Session) (now T t : Instant) (photo : Option String)
    (rings : World) (hrings : s.LetsRing now T rings)
    (hlatest : ∀ i, rings.wakeups.records.Holds s.user i → i ≤ T)
    (hpending : ∀ w, rings.wakeups.records.find? s.user T = some w → w.isAcknowledged = false) :
    let call := (Acknowledger.new s.user s.settings).acknowledge T ⟨t, photo⟩
    (T ≤ t → ∀ look stop silent,
      let attempt := call.runWith [.answered, look, .answered, stop, silent] ⟨rings, []⟩
      attempt.1 = .ok ⟨T, some ⟨t, photo⟩⟩ ∧
        (stop.Reaches ∨ silent.Reaches → attempt.2.world.player.isRinging = false)) ∧
      (t < T → ∀ fates,
        call.runWith fates ⟨rings, []⟩ = (.error (.refused (.notTriggered T)), ⟨rings, []⟩)) := by
  have hawaits : rings.Awaits s.user T := World.awaits_of_fired hrings.fired hlatest hpending
  refine ⟨fun hdated look stop silent => ?_, fun hearly fates => ?_⟩
  · exact acknowledge_runWith_awaited _ hawaits hdated look stop silent
  · exact acknowledge_runWith_early _ hearly fates _

/-- Midnight at 05:30 east rings 25 seconds ahead, and its wake-up cannot be saved. A call at
midnight acknowledges it, and ends the alarm although the silent loop cannot be started. -/
theorem acknowledges_what_rings_ahead :
    let midnight : Instant := ⟨1781116200, 0, by decide, by decide, by decide, by decide⟩
    let ahead : Instant := ⟨1781116175, 0, by decide, by decide, by decide, by decide⟩
    let s := Session.new "ada" (.fixed 19800) .defaults
    let rings : World := ((s.tick ahead).runAmid
      [.undisturbed, .undisturbed, ⟨[], .unwritten .isDirectory⟩]
      ⟨.new ⟨"config", ⟨.defaults, [⟨"ada", ⟨0, 0⟩⟩]⟩, none⟩ ⟨"wakeups", .empty, none⟩, []⟩).2.world
    let call := ((Acknowledger.new "ada" .defaults).acknowledge midnight ⟨midnight, none⟩).runWith
      [.answered, .answered, .answered, .answered, .down "busy"] ⟨rings, []⟩
    s.LetsRing ahead midnight rings ∧ rings.wakeups.records = .empty ∧
      rings.player.isRinging = true ∧ call.1 = .ok ⟨midnight, some ⟨midnight, none⟩⟩ ∧
      call.2.world.player.isRinging = false := by
  intro midnight ahead s rings call
  have hrings : s.LetsRing ahead midnight rings := by
    refine ⟨_, _, ?_, ?_, rfl⟩
    · simp [Turn.FiresNothing, Turn.undisturbed]
    · decide +kernel
  have hempty : rings.wakeups.records = .empty := by decide +kernel
  have hringing : rings.player.isRinging = true := by decide +kernel
  clear_value rings
  obtain ⟨hanswered, -⟩ := acknowledges_what_rings s ahead midnight midnight none rings hrings
    (by rw [hempty]; rintro i ⟨r, hr, -⟩; cases hr) (by rw [hempty]; rintro w ⟨⟩)
  obtain ⟨hok, hends⟩ := hanswered (by decide) .answered .answered (.down "busy")
  exact ⟨hrings, hempty, hringing, hok, hends (.inl (by rintro reason ⟨⟩))⟩

/-- Midnight at 05:30 east rings 25 seconds ahead. A call five seconds later, which is dated then,
is refused, and the alarm rings on. -/
theorem refused_while_ringing :
    let midnight : Instant := ⟨1781116200, 0, by decide, by decide, by decide, by decide⟩
    let ahead : Instant := ⟨1781116175, 0, by decide, by decide, by decide, by decide⟩
    let now : Instant := ⟨1781116180, 0, by decide, by decide, by decide, by decide⟩
    let tick := ((Session.new "ada" (.fixed 19800) .defaults).tick ahead).runAmid []
      ⟨.new ⟨"config", ⟨.defaults, [⟨"ada", ⟨0, 0⟩⟩]⟩, none⟩ ⟨"wakeups", .empty, none⟩, []⟩
    let call := ((Acknowledger.new "ada" .defaults).acknowledge midnight ⟨now, none⟩).runWith []
      ⟨tick.2.world, []⟩
    reported? tick.1.1 = some midnight ∧
      tick.2.world.wakeups.latest? "ada" = some (.pending midnight) ∧ ahead ≤ now ∧
      call.1 = .error (.refused (.notTriggered midnight)) ∧
      call.2.world.player.isRinging = true := by
  decide +kernel

end Acknowledger

end Reveille
