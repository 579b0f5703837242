import Reveille.Proofs.Session.NothingLost

/-!
# What is to be heard

As long as the player can be reached, what it plays is determined by what has come of the deeds of
a session : a tick that lets an occurrence ring leaves it playing the alarm, an acknowledgment that
is accepted, or a silence, leaves it playing the silent loop, and nothing else that is done changes
it (`Entry.leaves`, `Scene.player_carryOut`). So the alarm is heard exactly if an occurrence has
rung and nothing has calmed it since (`plays_what_happened`).
-/

namespace Reveille

open Activity

/-! ## What deeds leave behind -/

namespace Entry

/-- The alarm has been calmed : it has been silenced, or an acknowledgment has been accepted. -/
def calms (e : Entry) : Bool :=
  match e.deed, e.outcome with
  | .silence, _ => true
  | _, .acknowledged (.ok _) => true
  | _, _ => false

/-- The player that a deed leaves behind, `volume` being the volume of the alarm. -/
def leaves (volume : Binary Format.binary32) (p : Player) (e : Entry) : Player :=
  if e.ringing?.isSome then ⟨some .alarm, if volume.InUnitInterval then volume else p.volume⟩
  else if e.calms then { p with playing := some .silent }
  else p

end Entry

/-- An occurrence has rung, and nothing has calmed the alarm since. -/
def Sounding (log : List Entry) : Prop :=
  ∃ before e after, log = before ++ e :: after ∧ e.ringing?.isSome = true ∧
    ∀ e' ∈ after, e'.calms = false

theorem not_sounding_nil : ¬ Sounding [] := by
  rintro ⟨before, e, after, h, -⟩
  exact List.append_ne_nil_of_right_ne_nil before (List.cons_ne_nil e after) h.symm

theorem sounding_cons {e : Entry} {log : List Entry} : Sounding (e :: log) ↔
    Sounding log ∨ e.ringing?.isSome = true ∧ ∀ e' ∈ log, e'.calms = false := by
  constructor
  · rintro ⟨before, x, after, h, hx, hafter⟩
    cases before with
    | nil =>
      cases h
      exact .inr ⟨hx, hafter⟩
    | cons y before =>
      cases h
      exact .inl ⟨before, x, after, rfl, hx, hafter⟩
  · rintro (⟨before, x, after, rfl, hx, hafter⟩ | ⟨he, hlog⟩)
    · exact ⟨e :: before, x, after, rfl, hx, hafter⟩
    · exact ⟨[], e, log, rfl, he, hlog⟩

section Leaves

variable {volume : Binary Format.binary32} {p : Player} {e : Entry}

theorem isRinging_leaves : (e.leaves volume p).isRinging = true ↔
    e.ringing?.isSome = true ∨ p.isRinging = true ∧ e.calms = false := by
  unfold Entry.leaves Player.isRinging
  split
  · next h => simp [h]
  · next h =>
    split
    · next hc => simp [h, hc]
    · next hc => simp [h, hc]

/-- The alarm is heard if it has rung and not been calmed since, or was heard at first and has not
been calmed. -/
theorem isRinging_foldl : ∀ (log : List Entry) (p : Player),
    (log.foldl (Entry.leaves volume) p).isRinging = true ↔
      Sounding log ∨ p.isRinging = true ∧ ∀ e ∈ log, e.calms = false
  | [], p => by simp [not_sounding_nil]
  | e :: log, p => by
    rw [List.foldl_cons, isRinging_foldl log, isRinging_leaves, sounding_cons]
    simp only [List.mem_cons, forall_eq_or_imp]
    rw [or_and_right, and_assoc, or_assoc]

/-- Where the alarm is not heard, the silent loop is if the alarm has been calmed. -/
theorem playing_foldl : ∀ (log : List Entry) (p : Player),
    (log.foldl (Entry.leaves volume) p).isRinging = false →
      (log.foldl (Entry.leaves volume) p).playing =
        if ∃ e ∈ log, e.calms = true then some .silent else p.playing
  | [], p, _ => by simp
  | e :: log, p, h => by
    rw [List.foldl_cons] at h ⊢
    rw [playing_foldl log _ h]
    by_cases hlater : ∃ e' ∈ log, e'.calms = true
    · simp [hlater]
    have hquiet : ∀ e' ∈ log, e'.calms = false := by simpa using hlater
    -- Nothing later calms the alarm, so it is not heard after this deed.
    have hnot : ¬ (e.leaves volume p).isRinging = true := by
      intro hp
      rw [(isRinging_foldl log _).mpr (.inr ⟨hp, hquiet⟩)] at h
      cases h
    have hrings : ¬ e.ringing?.isSome = true :=
      fun hrings => hnot (isRinging_leaves.mpr (.inl hrings))
    simp only [List.mem_cons, exists_eq_or_imp, hlater, or_false, if_false]
    unfold Entry.leaves
    rw [if_neg hrings]
    split <;> rfl

/-- The volume is that of the alarm once it has rung, if a player accepts it. -/
theorem volume_foldl : ∀ (log : List Entry) (p : Player),
    (log.foldl (Entry.leaves volume) p).volume =
      if (∃ e ∈ log, e.ringing?.isSome = true) ∧ volume.InUnitInterval then volume else p.volume
  | [], p => by simp
  | e :: log, p => by
    have hleaves : (e.leaves volume p).volume =
        if e.ringing?.isSome = true ∧ volume.InUnitInterval then volume else p.volume := by
      unfold Entry.leaves
      by_cases he : e.ringing?.isSome = true
      · simp [he]
      · rw [if_neg he]
        by_cases hc : e.calms = true <;> simp [he, hc]
    rw [List.foldl_cons, volume_foldl log, hleaves]
    simp only [List.mem_cons, exists_eq_or_imp]
    by_cases hvolume : volume.InUnitInterval <;> by_cases he : e.ringing?.isSome = true <;>
      simp [hvolume, he]

end Leaves

/-! ## Requests -/

/-- A command has found the player out of reach. -/
def Notice.isMiss : Notice → Bool
  | .sounded _ (some .locked) => true
  | _ => false

/-- No command has found the player out of reach. -/
def Reaches (notices : List Notice) : Prop := ∀ n ∈ notices, n.isMiss = false

instance (notices : List Notice) : Decidable (Reaches notices) :=
  inferInstanceAs (Decidable (∀ n ∈ notices, n.isMiss = false))

/-- The player once it has been told something, which it follows if it can. -/
def Player.told (p : Player) (command : SoundCommand) : Player :=
  match p.obey command with
  | .ok q => q
  | .error _ => p

/-- A volume is taken if it lies between 0 and 1. -/
theorem Player.told_setVolume (p : Player) (level : Binary Format.binary32) :
    p.told (.setVolume level) =
      { p with volume := if level.InUnitInterval then level else p.volume } := by
  unfold told obey
  by_cases h : level.InUnitInterval <;> simp [h]

/-- A player that is told something is out of reach, or follows it if it can. -/
theorem World.sound_cases (player : Player) (command : SoundCommand) (fate : Fate) :
    (World.sound player command fate).1 = .error .locked ∨
      (World.sound player command fate).2 = player.told command := by
  unfold Player.told
  cases fate with
  | down reason => exact .inl rfl
  | _ =>
    unfold sound
    dsimp only
    cases player.obey command <;> exact .inr rfl

/-- The request tells the player nothing. -/
def Request.IsMute : Request → Prop
  | .sound _ => False
  | _ => True

namespace Watch

variable {s s' : Watch} {p : Player} {r : Request} {x : r.Result}

/-- The player is `p` if it has been in reach. -/
def Plays (p : Player) (s : Watch) : Prop := Reaches s.notices → s.world.player = p

theorem reaches_of_meets (hm : s.Meets r x s') (h : Reaches s'.notices) : Reaches s.notices := by
  intro n hn
  rw [notices_of_meets hm] at h
  exact h n (List.mem_append_left _ hn)

theorem Plays.of_meets (h : s.Plays p) (hm : s.Meets r x s') (hr : r.IsMute) : s'.Plays p := by
  intro hreaches
  rw [← h (reaches_of_meets hm hreaches)]
  obtain ⟨fate, hm⟩ := hm
  cases r with
  | sound command => exact hr.elim
  | announce a =>
    cases hm
    dsimp only [World.answer]
    split <;> rfl
  | _ =>
    cases hm
    rfl

theorem Plays.told {command : SoundCommand} {y : Except SoundFault Unit} (h : s.Plays p)
    (hm : s.Meets (.sound command) y s') : s'.Plays (p.told command) := by
  intro hreaches
  have hp := h (reaches_of_meets hm hreaches)
  rw [notices_of_meets hm] at hreaches
  obtain ⟨fate, hm⟩ := hm
  cases hm
  rcases World.sound_cases s.world.player command fate with hlocked | hfollowed
  · have hmiss : .sounded command (some .locked) ∈ (Request.notice? s.world (.sound command)
        (World.sound s.world.player command fate).1).toList := by
      rw [hlocked]
      exact List.mem_singleton_self _
    exact absurd (hreaches _ (List.mem_append_right _ hmiss)) (by simp [Notice.isMiss])
  · rw [← hp]
    exact hfollowed

/-- An activity that tells the player nothing leaves it as it is. -/
theorem Plays.ensures {α : Type} {a : Activity α} (h : s.Plays p) (ha : a.Asks Request.IsMute) :
    a.Ensures Watch.Meets (fun _ s' => s'.Plays p) s :=
  ha.ensures (fun _ _ _ _ hr h hm => h.of_meets hm hr) h

end Watch

/-! ## Activities -/

namespace Session

variable {o : Watch} {p : Player}

/-- The player once an occurrence has rung. -/
def sounding (s : Session) (p : Player) : Player :=
  ⟨some .alarm, if s.settings.volume.InUnitInterval then s.settings.volume else p.volume⟩

/-- A volume that is refused keeps the alarm from nothing. -/
theorem told_playAlarm (s : Session) (p : Player) :
    (p.told (.setVolume s.settings.volume)).told .playAlarm = s.sounding p := by
  rw [p.told_setVolume]
  rfl

theorem ring_plays (s : Session) (trigger : Instant) (h : o.Plays p) :
    (s.ring trigger).Ensures Watch.Meets (fun _ o' => o'.Plays (s.sounding p)) o := by
  unfold ring
  rw [ensures_request_bind]
  intro _ o₁ h₁
  have p₁ : o₁.Plays p := h.of_meets h₁ trivial
  rw [ensures_bind]
  refine ((p₁.ensures (s.save_asks _ fun _ _ => trivial)).and (s.save_ensures _)).mono ?_
  rintro s' o₂ ⟨p₂, ws, rfl⟩
  rw [ensures_request_bind]
  intro _ o₃ h₃
  rw [ensures_request_bind]
  intro _ o₄ h₄
  have p₄ := (p₂.told h₃).told h₄
  rw [ensures_request_bind]
  intro _ o₅ h₅
  rw [← s.told_playAlarm p]
  exact p₄.of_meets h₅ trivial

theorem act_plays (s : Session) (d : Decision) (h : o.Plays p) :
    (s.act d).Ensures Watch.Meets
      (fun _ o' => o'.Plays (if d.ringing?.isSome then s.sounding p else p)) o := by
  unfold act
  cases d.ringing? with
  | some trigger => exact s.ring_plays trigger h
  | none => exact h

/-- The player once a tick has reported. -/
def playerAfter (s : Session) (p : Player) (report : Except SessionFault TickReport) : Player :=
  if (reported? report).isSome then s.sounding p else p

theorem follow_plays (s : Session) (alarm : Option Alarm) (now : Instant) (h : o.Plays p) :
    (s.follow alarm now).Ensures Watch.Meets
      (fun res o' => o'.Plays (s.playerAfter p res.1)) o := by
  unfold follow
  split
  · exact h
  · next d scheduler hd =>
    rw [ensures_bind]
    refine ((act_plays { s with scheduler } d h).and (act_ensures _ d)).mono ?_
    rintro s' o₁ ⟨p₁, ws, rfl⟩
    -- The phase is found, so what has rung is reported.
    obtain ⟨next, hnext⟩ := exists_nextTrigger hd ws
    rw [ensures_bind]
    refine ((p₁.ensures (refresh_asks _ alarm now trivial trivial fun _ => trivial)).and
      (refresh_ensures hnext)).mono ?_
    rintro res o₂ ⟨p₂, phase, rfl⟩
    exact p₂

/-- A tick leaves the player sounding if it reports that an occurrence rings, else as it is. -/
theorem tick_plays (s : Session) (now : Instant) (h : o.Plays p) :
    (s.tick now).Ensures Watch.Meets (fun res o' => o'.Plays (s.playerAfter p res.1)) o := by
  unfold tick
  rw [ensures_bind]
  refine ((h.ensures (saveAll_asks (s.keeping []) s.unsaved fun _ _ => trivial)).and
    s.retry_ensures).mono ?_
  rintro s' o₁ ⟨p₁, ws, rfl⟩
  rw [ensures_request_bind]
  intro reply o₂ h₂
  have p₂ := p₁.of_meets h₂ trivial
  split
  · exact p₂
  · exact follow_plays (s.keeping ws) _ now p₂

end Session

namespace Acknowledger

variable {o : Watch} {p : Player}

theorem silence_plays (h : o.Plays p) : silence.Ensures Watch.Meets
    (fun _ o' => o'.Plays { p with playing := some .silent }) o := by
  unfold silence
  rw [ensures_request_bind]
  intro _ o₁ h₁
  rw [ensures_request_bind]
  intro _ o₂ h₂
  exact (h.told h₁).told h₂

/-- A call leaves the player playing the silent loop if it returns an acknowledgment, else as it
is. -/
theorem acknowledge_plays (a : Acknowledger) (alarmInstant : Instant) (ack : Acknowledgment)
    (h : o.Plays p) : (a.acknowledge alarmInstant ack).Ensures Watch.Meets (fun res o' =>
      o'.Plays (if res.toOption.isSome then { p with playing := some .silent } else p)) o := by
  refine a.ensures_acknowledge h fun _ o₁ h₁ => ?_
  have p₁ := h.of_meets h₁ trivial
  refine ⟨fun _ => p₁, fun _ o₂ h₂ => ?_⟩
  have p₂ := p₁.of_meets h₂ trivial
  refine ⟨fun _ => p₂, fun _ _ _ _ => a.ensures_conclude fun _ o₃ h₃ => ?_⟩
  have p₃ := p₂.of_meets h₃ trivial
  exact ⟨fun _ => p₃, fun _ _ => silence_plays p₃⟩

end Acknowledger

/-! ## Courses -/

/-- A tick keeps the settings of the session. -/
theorem Session.Ticked.settings_eq {s : Session} {now : Instant} {reply : Reply (Option Alarm)}
    {res : Except SessionFault TickReport × Session} (h : s.Ticked now reply res) :
    res.2.settings = s.settings := by
  cases h with
  | unread fault ws h => rfl
  | read alarm res h hres => cases hres <;> rfl

theorem Entry.calms_acknowledged (alarmInstant : Instant) (ack : Acknowledgment)
    (reply : Except SessionFault Wakeup) (notices : List Notice) :
    calms ⟨.acknowledge alarmInstant ack, .acknowledged reply, notices⟩ =
      reply.toOption.isSome := by
  cases reply <;> rfl

namespace Scene

/-- A deed keeps the settings of the session. -/
theorem settings_carryOut (s : Scene) (deed : Deed) (fates : List Fate) :
    (s.carryOut deed fates).2.session.settings = s.session.settings := by
  cases deed with
  | tick now =>
    have hend := (s.session.tick_ensures now).runWith (s := ⟨s.world, []⟩) fates
    obtain ⟨_, reply, _, -, hticked⟩ := hend
    exact hticked.settings_eq
  | _ => rfl

/-- As long as the player is in reach, what comes of a deed tells what it leaves. -/
theorem player_carryOut (s : Scene) (deed : Deed) (fates : List Fate)
    (hreaches : Reaches (s.carryOut deed fates).1.notices) :
    (s.carryOut deed fates).2.world.player =
      (s.carryOut deed fates).1.leaves s.session.settings.volume s.world.player := by
  have hstart : Watch.Plays s.world.player ⟨s.world, []⟩ := fun _ => rfl
  cases deed with
  | tick now =>
    refine ((s.session.tick_plays now hstart).runWith fates hreaches).trans ?_
    unfold Scene.carryOut Entry.leaves
    dsimp only
    rw [Entry.ringing?_ticked]
    rfl
  | acknowledge alarmInstant ack =>
    refine ((Acknowledger.acknowledge_plays (.new s.session.user s.session.settings)
      alarmInstant ack hstart).runWith fates hreaches).trans ?_
    unfold Scene.carryOut Entry.leaves
    dsimp only
    rw [Entry.calms_acknowledged]
    rfl
  | silence => exact (Acknowledger.silence_plays hstart).runWith fates hreaches
  | setAlarms alarms => rfl
  | listen stays => rfl

/-- As long as the player is in reach, the log tells what it plays. -/
theorem player_run (s : Scene) (course : List (Deed × List Fate))
    (hreaches : ∀ e ∈ (s.run course).1, Reaches e.notices) :
    (s.run course).2.world.player =
      (s.run course).1.foldl (Entry.leaves s.session.settings.volume) s.world.player := by
  have h : (s.run course).2.session.settings = s.session.settings ∧
      ((∀ e ∈ (s.run course).1, Reaches e.notices) → (s.run course).2.world.player =
        (s.run course).1.foldl (Entry.leaves s.session.settings.volume) s.world.player) := by
    refine run_induction (motive := fun log s' => s'.session.settings = s.session.settings ∧
      ((∀ e ∈ log, Reaches e.notices) → s'.world.player =
        log.foldl (Entry.leaves s.session.settings.volume) s.world.player)) ?_ ?_ course
    · exact ⟨rfl, fun _ => rfl⟩
    · rintro log s' deed fates ⟨hsettings, hplayer⟩
      refine ⟨(s'.settings_carryOut deed fates).trans hsettings, fun hreaches => ?_⟩
      rw [List.foldl_append, ← hplayer fun e he => hreaches e (List.mem_append_left _ he),
        ← hsettings]
      exact s'.player_carryOut deed fates (hreaches _ (by simp))
  exact h.2 hreaches

end Scene

/-! ## The theorem -/

/-- In every course of a session whose player stays in reach, however the requests to its stores
fare : the alarm is heard exactly if an occurrence has rung and nothing has calmed it since, or it
was heard at the start and nothing has calmed it at all. Where it is not heard, the silent loop is
if anything has calmed it. The volume is that of the settings once an occurrence has rung, if it
lies between 0 and 1, and else as at the start. A deed that neither lets an occurrence ring nor
calms the alarm leaves the player as it is. -/
theorem plays_what_happened (user : String) (zone : Zone) (settings : Settings) (world : World)
    (course : List (Deed × List Fate))
    (hreaches : ∀ e ∈ ((Scene.start user zone settings world).run course).1, Reaches e.notices) :
    let log := ((Scene.start user zone settings world).run course).1
    let s := ((Scene.start user zone settings world).run course).2
    (s.world.player.isRinging = true ↔
        (∃ before e after, log = before ++ e :: after ∧ e.ringing?.isSome = true ∧
          ∀ e' ∈ after, e'.calms = false) ∨
        world.player.isRinging = true ∧ ∀ e ∈ log, e.calms = false) ∧
      (s.world.player.isRinging = false → (∃ e ∈ log, e.calms = true) →
        s.world.player.playing = some .silent) ∧
      s.world.player.volume =
        (if (∃ e ∈ log, e.ringing?.isSome = true) ∧ settings.volume.InUnitInterval
          then settings.volume else world.player.volume) ∧
      ∀ deed fates, let e := (s.carryOut deed fates).1
        Reaches e.notices → e.ringing? = none → e.calms = false →
          (s.carryOut deed fates).2.world.player = s.world.player := by
  intro log s
  have hplayer : s.world.player = log.foldl (Entry.leaves settings.volume) world.player :=
    Scene.player_run _ course hreaches
  refine ⟨?_, fun hquiet hcalms => ?_, ?_, fun deed fates => ?_⟩
  · rw [hplayer]
    exact isRinging_foldl log world.player
  · rw [hplayer] at hquiet ⊢
    rw [playing_foldl log world.player hquiet, if_pos hcalms]
  · rw [hplayer]
    exact volume_foldl log world.player
  · intro e he hring hcalms
    rw [s.player_carryOut deed fates he]
    unfold Entry.leaves
    rw [hring, hcalms]
    rfl

/-- Midnight at 05:30 east rings at a volume that no player accepts, while its file cannot be
written. It is silenced and not acknowledged, and a tick that is told nothing of the alarm fails :
the silent loop goes on, at the volume from before. -/
theorem plays_what_happened_midnight :
    let midnight : Instant := ⟨1781116200, 0, by decide, by decide, by decide, by decide⟩
    let now : Instant := ⟨1781116205, 0, by decide, by decide, by decide, by decide⟩
    let world : World :=
      .new ⟨"config", ⟨.defaults, [⟨"ada", ⟨0, 0⟩⟩]⟩, none⟩ ⟨"wakeups", .empty, none⟩
    let settings : Settings :=
      { Settings.defaults with volume := Binary.round Format.binary32 false 2 1 }
    let rings : Deed × List Fate :=
      (.tick midnight, [.answered, .answered, .unwritten .isDirectory])
    let course : List (Deed × List Fate) := [rings, (.silence, []), (.tick now, [.down "disk"])]
    let log := ((Scene.start "ada" (.fixed 19800) settings world).run course).1
    let s := ((Scene.start "ada" (.fixed 19800) settings world).run course).2
    (∀ e ∈ log, Reaches e.notices) ∧ rung log = [midnight] ∧
      ((Scene.start "ada" (.fixed 19800) settings world).run [rings]).2.world.player.isRinging =
        true ∧
      s.world.player.playing = some .silent ∧ s.world.player.volume = world.player.volume := by
  dsimp only
  refine ⟨by decide +kernel, by decide +kernel, by decide +kernel, ?_, ?_⟩
  · exact (plays_what_happened "ada" (.fixed 19800) _ _ _ (by decide +kernel)).2.1
      (by decide +kernel) (by decide +kernel)
  · exact (plays_what_happened "ada" (.fixed 19800) _ _ _ (by decide +kernel)).2.2.1.trans
      (if_neg fun h => absurd h.2 (by decide +kernel))

end Reveille
