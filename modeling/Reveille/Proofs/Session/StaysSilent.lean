import Reveille.Proofs.Session.Interplay

/-!
# Acknowledged occurrences stay silent

Whatever the order in which ticks and calls of the user take turns, a call that acknowledges an
occurrence which has fired returns in silence, and from then on the alarm is never heard on account
of that occurrence (`Interplay.stays_silent`), but for one order : a tick that has let the
occurrence fire, and has not started the alarm yet, starts it after the call has returned
(`Interplay.rings_after_acknowledgment`).
-/

namespace Reveille

open Activity

/-! ## Orderly interplays -/

/-- The session is settled between two ticks, and will be after the tick that is under way. -/
def Stance.IsOrderly (f : Firing) : Stance → Prop
  | .waiting s => s.Settled f
  | .ticking rest => rest.Abides Firing.Allows Firing.note (fun res f => res.2.Settled f) f

namespace Interplay

variable {s t : Interplay} {r : Request} {fate : Fate} {T i : Instant} {f₀ : Firing}

/-- All that is under way keeps to the rules. -/
structure Orderly (s : Interplay) : Prop where
  stance : s.stance.IsOrderly s.firing
  calls : ∀ c ∈ s.calls, ∃ last, c.IsUsers last

theorem orderly_start (user : String) (zone : Zone) (settings : Settings) (world : World) :
    (start user zone settings world).Orderly := by
  refine ⟨⟨rfl, ?_, ?_⟩, ?_⟩
  · exact fun i hi => absurd hi List.not_mem_nil
  · exact fun i _ => iff_of_false (Handled.not_contains_empty i) List.not_mem_nil
  · exact fun c hc => absurd hc List.not_mem_nil

/-- What the next request of a call leaves of it. -/
theorem Orderly.next_call (h : s.Orderly) {n : Nat} {next : r.Result → Call}
    (hc : s.calls[n]? = some (.ask r next)) :
    r.IsTame ∧ ∀ x, (next x).IsUsers (some r) := by
  obtain ⟨last, htame, hsilent⟩ := h.calls _ (List.mem_of_getElem? hc)
  exact ⟨htame.1, fun x => ⟨htame.2 x, hsilent x (some r) rfl⟩⟩

/-- Every move leaves what is under way in order. -/
theorem Orderly.step (h : s.Orderly) (m : Move) : (s.step m).Orderly := by
  obtain ⟨hstance, hcalls⟩ := h
  cases m with
  | look now =>
    unfold Interplay.step
    dsimp only
    split
    · next session hs =>
      rw [hs] at hstance
      exact ⟨Session.tick_abides hstance now, hcalls⟩
    · exact ⟨hstance, hcalls⟩
  | tick fate =>
    unfold Interplay.step
    dsimp only
    split
    · exact ⟨hstance, hcalls⟩
    · next session hs =>
      rw [hs] at hstance
      exact ⟨hstance, hcalls⟩
    · next r next hs =>
      rw [hs] at hstance
      exact ⟨hstance.2 _, hcalls⟩
  | acknowledge alarmInstant ack =>
    refine ⟨hstance, fun c hc => ?_⟩
    rcases List.mem_append.mp hc with hc | hc
    · exact hcalls c hc
    · exact ⟨none, List.mem_singleton.mp hc ▸ Call.acknowledge_isUsers _ _ _⟩
  | silence =>
    refine ⟨hstance, fun c hc => ?_⟩
    rcases List.mem_append.mp hc with hc | hc
    · exact hcalls c hc
    · exact ⟨none, List.mem_singleton.mp hc ▸ Call.silence_isUsers⟩
  | call n fate =>
    unfold Interplay.step
    dsimp only
    split
    · next r next hc =>
      obtain ⟨htame, hnext⟩ := Orderly.next_call ⟨hstance, hcalls⟩ hc
      refine ⟨?_, fun c hc => ?_⟩
      · show s.stance.IsOrderly (s.firing.note r)
        rwa [(Firing.of_isTame htame).2]
      · rcases List.mem_or_eq_of_mem_set hc with hc | rfl
        · exact hcalls c hc
        · exact ⟨some r, hnext _⟩
    · exact ⟨hstance, hcalls⟩
  | setAlarms alarms => exact ⟨hstance, hcalls⟩
  | listen stays => exact ⟨hstance, hcalls⟩

theorem Orderly.run (h : s.Orderly) (moves : List Move) : (s.run moves).Orderly := by
  induction moves generalizing s with
  | nil => exact h
  | cons m moves ih => exact ih (h.step m)

/-! ## What is heard -/

/-- Player and account are the same. -/
structure SoundsLike (s t : Interplay) : Prop where
  player : s.world.player = t.world.player
  firing : s.firing = t.firing
  sounding : s.sounding = t.sounding

theorem SoundsLike.refl (s : Interplay) : s.SoundsLike s := ⟨rfl, rfl, rfl⟩

/-- A move makes a request that the rules allow, or leaves everything that is heard as it is. -/
theorem Orderly.step_cases (h : s.Orderly) (m : Move) : (s.step m).SoundsLike s ∨
    ∃ fate r, s.firing.Allows r ∧ (s.step m).SoundsLike (s.meet fate r).2 := by
  cases m with
  | look now =>
    unfold Interplay.step
    dsimp only
    split <;> exact .inl ⟨rfl, rfl, rfl⟩
  | tick fate =>
    unfold Interplay.step
    dsimp only
    split
    · exact .inl (.refl s)
    · exact .inl ⟨rfl, rfl, rfl⟩
    · next r next hs =>
      have hstance := h.stance
      rw [hs] at hstance
      exact .inr ⟨fate, r, hstance.1, rfl, rfl, rfl⟩
  | call n fate =>
    unfold Interplay.step
    dsimp only
    split
    · next r next hc =>
      exact .inr ⟨fate, r, (Firing.of_isTame (h.next_call hc).1).1, rfl, rfl, rfl⟩
    · exact .inl (.refl s)
  | _ => exact .inl ⟨rfl, rfl, rfl⟩

theorem isRinging_setVolume (s : Interplay) (fate : Fate) (level : Binary Format.binary32) :
    (s.meet fate (.sound (.setVolume level))).2.world.player.isRinging =
      s.world.player.isRinging :=
  World.isRinging_setVolume s.world.player level .answered

theorem player_announce (s : Interplay) (fate : Fate) (a : Announcement) :
    (s.meet fate (.announce a)).2.world.player = s.world.player := by
  unfold meet World.answer
  dsimp only
  split <;> rfl

/-- The occurrence is another one than `T`, and its alarm was still to be started then or it has
fired since. -/
def FiredBeside (T : Instant) (f₀ f : Firing) (i : Instant) : Prop :=
  i ≠ T ∧ (f₀.outstanding = some i ∨ i ∈ f.fired.drop f₀.fired.length)

/-- Since the account was `f₀`, the alarm has been heard and is to be heard on account of other
occurrences than `T` only. -/
structure Silenced (T : Instant) (f₀ : Firing) (s : Interplay) : Prop where
  grown : f₀.fired <+: s.firing.fired
  outstanding : ∀ i, s.firing.outstanding = some i → FiredBeside T f₀ s.firing i
  sounding : ∀ i, s.sounding = some i → FiredBeside T f₀ s.firing i
  ringing : s.world.player.isRinging = true → s.sounding.isSome

theorem Silenced.of_soundsLike (h : t.Silenced T f₀) (hst : s.SoundsLike t) : s.Silenced T f₀ := by
  obtain ⟨hplayer, hfiring, hsounding⟩ := hst
  obtain ⟨h1, h2, h3, h4⟩ := h
  constructor
  · rwa [hfiring]
  · rwa [hfiring]
  · rwa [hfiring, hsounding]
  · rwa [hplayer, hsounding]

/-- No request that the rules allow brings back the sound of an occurrence that has fired. -/
theorem Silenced.meet (h : s.Silenced T f₀) (hT : T ∈ f₀.fired) (hr : s.firing.Allows r)
    (fate : Fate) : (s.meet fate r).2.Silenced T f₀ := by
  cases r with
  | fire i =>
    have hlen := h.grown.length_le
    have hmore : ∀ j, FiredBeside T f₀ s.firing j →
        FiredBeside T f₀ (s.firing.note (.fire i)) j := by
      rintro j ⟨hj, hout | hfired⟩
      · exact ⟨hj, .inl hout⟩
      · refine ⟨hj, .inr ?_⟩
        show j ∈ (s.firing.fired ++ [i]).drop f₀.fired.length
        rw [List.drop_append_of_le_length hlen]
        exact List.mem_append_left _ hfired
    refine ⟨h.grown.trans (List.prefix_append _ _), ?_, fun j hj => hmore j (h.sounding j hj),
      h.ringing⟩
    rintro j ⟨⟩
    refine ⟨?_, .inr ?_⟩
    · rintro rfl
      exact hr (h.grown.subset hT)
    · show i ∈ (s.firing.fired ++ [i]).drop f₀.fired.length
      rw [List.drop_append_of_le_length hlen]
      exact List.mem_append_right _ (List.mem_singleton_self i)
  | sound command =>
    cases command with
    | playAlarm =>
      exact ⟨h.grown, (by rintro i ⟨⟩), h.outstanding, fun _ => hr⟩
    | playSilent =>
      exact ⟨h.grown, h.outstanding, (by rintro i ⟨⟩), (by rintro ⟨⟩)⟩
    | stop =>
      exact ⟨h.grown, h.outstanding, (by rintro i ⟨⟩), (by rintro ⟨⟩)⟩
    | setVolume level =>
      refine ⟨h.grown, h.outstanding, h.sounding, fun hring => h.ringing ?_⟩
      rwa [isRinging_setVolume] at hring
  | announce a =>
    refine ⟨h.grown, h.outstanding, h.sounding, fun hring => h.ringing ?_⟩
    rwa [player_announce] at hring
  | _ => exact ⟨h.grown, h.outstanding, h.sounding, h.ringing⟩

theorem Silenced.run (h : s.Silenced T f₀) (hs : s.Orderly) (hT : T ∈ f₀.fired)
    (moves : List Move) : (s.run moves).Silenced T f₀ := by
  induction moves generalizing s with
  | nil => exact h
  | cons m moves ih =>
    refine ih ?_ (hs.step m)
    obtain hsame | ⟨fate, r, hr, hsame⟩ := hs.step_cases m
    · exact h.of_soundsLike hsame
    · exact (h.meet hT hr fate).of_soundsLike hsame

/-! ## When a call returns -/

theorem step_call {n : Nat} {next : r.Result → Call} (hc : s.calls[n]? = some (.ask r next)) :
    s.step (.call n fate) =
      { (s.meet fate r).2 with calls := s.calls.set n (next (s.meet fate r).1) } := by
  unfold step
  dsimp only
  rw [hc]
  rfl

theorem step_call_of_acknowledged {n : Nat} {w : Wakeup} (hopen : s.acknowledged? n = none)
    (hreturn : (s.step (.call n fate)).acknowledged? n = some (T, w)) :
    ∃ r next, s.calls[n]? = some (.ask r next) ∧
      next (s.meet fate r).1 = .done (some (T, w)) := by
  by_cases hask : ∃ r next, s.calls[n]? = some (.ask r next)
  · obtain ⟨r, next, hc⟩ := hask
    refine ⟨r, next, hc, ?_⟩
    obtain ⟨hn, -⟩ := List.getElem?_eq_some_iff.mp hc
    rw [step_call hc] at hreturn
    unfold acknowledged? at hreturn
    dsimp only at hreturn
    rw [List.getElem?_set_self hn] at hreturn
    split at hreturn
    · next res hres =>
      rw [← hreturn]
      exact Option.some.inj hres
    · cases hreturn
  · have hsame : s.step (.call n fate) = s := by
      unfold step
      dsimp only
      split
      · next r next hc => exact absurd ⟨r, next, hc⟩ hask
      · rfl
    rw [hsame, hopen] at hreturn
    cases hreturn

/-- A call that acknowledges a wake-up returns in silence. -/
theorem Orderly.silent_of_acknowledged (h : s.Orderly) {n : Nat} {w : Wakeup}
    (hopen : s.acknowledged? n = none)
    (hreturn : (s.step (.call n fate)).acknowledged? n = some (T, w)) :
    (s.step (.call n fate)).sounding = none ∧
      (s.step (.call n fate)).world.player.isRinging = false := by
  obtain ⟨r, next, hc, hdone⟩ := step_call_of_acknowledged hopen hreturn
  have hsilent := ((h.next_call hc).2 (s.meet fate r).1).silent
  rw [hdone] at hsilent
  obtain rfl : r = .sound .playSilent := Option.some.inj (hsilent rfl)
  rw [step_call hc]
  exact ⟨rfl, rfl⟩

/-! ## Staying silent -/

/-- Once a call has acknowledged an occurrence that has fired, and for which the alarm has not still
to be started, the alarm is heard on account of other occurrences only : one for which it had still
to be started then, or one that has fired since. So if there is none, the alarm is not heard any
more. -/
theorem stays_silent (user : String) (zone : Zone) (settings : Settings) (world : World)
    (before after : List Move) (n : Nat) (fate : Fate) (T : Instant) (w : Wakeup) :
    let pending := (start user zone settings world).run before
    let returned := pending.step (.call n fate)
    let later := returned.run after
    pending.acknowledged? n = none → returned.acknowledged? n = some (T, w) →
    T ∈ returned.firing.fired → returned.firing.outstanding ≠ some T →
    (later.world.player.isRinging = true → ∃ i, later.sounding = some i ∧
        FiredBeside T returned.firing later.firing i) ∧
      (returned.firing.outstanding = none → later.firing.fired = returned.firing.fired →
        later.world.player.isRinging = false) := by
  intro pending returned later hopen hreturn hT hstarted
  have horderly : pending.Orderly := (orderly_start user zone settings world).run before
  obtain ⟨hsounding, hringing⟩ := horderly.silent_of_acknowledged hopen hreturn
  have hnow : returned.Silenced T returned.firing := by
    refine ⟨List.prefix_rfl, fun i hi => ⟨?_, .inl hi⟩, fun i hi => ?_, fun h => ?_⟩
    · rintro rfl
      exact hstarted hi
    · rw [hsounding] at hi
      cases hi
    · rw [hringing] at h
      cases h
  have hlater : later.Silenced T returned.firing :=
    hnow.run (horderly.step (.call n fate)) hT after
  have hring : later.world.player.isRinging = true → ∃ i, later.sounding = some i ∧
      FiredBeside T returned.firing later.firing i := by
    intro h
    obtain ⟨i, hi⟩ := Option.isSome_iff_exists.mp (hlater.ringing h)
    exact ⟨i, hi, hlater.sounding i hi⟩
  refine ⟨hring, fun hnone hsame => Bool.not_eq_true _ ▸ fun h => ?_⟩
  obtain ⟨i, -, -, hi | hi⟩ := hring h
  · rw [hnone] at hi
    cases hi
  · rw [hsame, List.drop_length] at hi
    cases hi

/-- Midnight at 05:30 east rings, and is acknowledged while the tick goes on. Neither the rest of
that tick nor another one brings the alarm back. -/
theorem stays_silent_midnight :
    let midnight : Instant := ⟨1781116200, 0, by decide, by decide, by decide, by decide⟩
    let now : Instant := ⟨1781116205, 0, by decide, by decide, by decide, by decide⟩
    let world : World :=
      .new ⟨"config", ⟨.defaults, [⟨"ada", ⟨0, 0⟩⟩]⟩, none⟩ ⟨"wakeups", .empty, none⟩
    let before : List Move := .look now :: List.replicate 5 (.tick .answered) ++
      .acknowledge midnight ⟨now, none⟩ :: List.replicate 4 (.call 0 .answered)
    let after : List Move := List.replicate 5 (.tick .answered) ++
      .look now :: List.replicate 3 (.tick .answered)
    let pending := (start "ada" (.fixed 19800) .defaults world).run before
    let returned := pending.step (.call 0 .answered)
    returned.acknowledged? 0 = some (midnight, ⟨midnight, some ⟨now, none⟩⟩) ∧
      (returned.run after).world.player.isRinging = false := by
  intro midnight now world before after
  dsimp only
  have hreturn : (((start "ada" (.fixed 19800) .defaults world).run before).step
      (.call 0 .answered)).acknowledged? 0 = some (midnight, ⟨midnight, some ⟨now, none⟩⟩) := by
    decide +kernel
  have hlater := stays_silent "ada" (.fixed 19800) .defaults world before after 0 .answered midnight
    ⟨midnight, some ⟨now, none⟩⟩ (by decide +kernel) hreturn (by decide +kernel) (by decide +kernel)
  exact ⟨hreturn, hlater.2 (by decide +kernel) (by decide +kernel)⟩

/-- Midnight at 05:30 east fires, and its record is saved. Before the tick starts the alarm, the
user acknowledges midnight, and the call returns; then the tick goes on and starts the alarm.
Nothing else has fired, and the alarm is heard on account of midnight. -/
theorem rings_after_acknowledgment :
    let midnight : Instant := ⟨1781116200, 0, by decide, by decide, by decide, by decide⟩
    let now : Instant := ⟨1781116205, 0, by decide, by decide, by decide, by decide⟩
    let world : World :=
      .new ⟨"config", ⟨.defaults, [⟨"ada", ⟨0, 0⟩⟩]⟩, none⟩ ⟨"wakeups", .empty, none⟩
    let before : List Move := .look now :: List.replicate 3 (.tick .answered) ++
      .acknowledge midnight ⟨now, none⟩ :: List.replicate 4 (.call 0 .answered)
    let pending := (start "ada" (.fixed 19800) .defaults world).run before
    let returned := pending.step (.call 0 .answered)
    let later := returned.run (List.replicate 2 (.tick .answered))
    pending.acknowledged? 0 = none ∧
      returned.acknowledged? 0 = some (midnight, ⟨midnight, some ⟨now, none⟩⟩) ∧
      returned.world.player.isRinging = false ∧
      returned.firing.fired = [midnight] ∧ later.firing.fired = [midnight] ∧
      later.sounding = some midnight ∧ later.world.player.isRinging = true := by
  decide +kernel

end Interplay

end Reveille
