import Reveille.Session.Timeline

/-!
# Horizons

To let a session run up to a time and then up to a later one is to let it run up to the later one
at once (`Timeline.advanceTo_advanceTo`), even if a request is open at the first time. So a run can
be taken apart at any times. An activity that ends before its horizon ends in the same way for
every later one (`Activity.advance_advance`).
-/

namespace Reveille

variable {α : Type} {limit h h' : Nat}

/-! ## Activities -/

/-- What an activity has come to, let run on up to a later horizon. -/
def Progress.advance (limit horizon : Nat) : Progress α → Rehearsal → Progress α × Rehearsal
  | .finished time a, s => (.finished time a, s)
  | .waiting w, s => w.advance limit horizon s

theorem Activity.advance_advance (hle : h ≤ h') (a : Activity α) (time : Nat) (s : Rehearsal) :
    (a.advance limit h time s).1.advance limit h' (a.advance limit h time s).2 =
      a.advance limit h' time s := by
  induction a generalizing time s with
  | done a => rfl
  | ask r next ih =>
    unfold Activity.advance
    dsimp only
    generalize s.make limit time r = made
    obtain ⟨due, fate, s⟩ := made
    dsimp only
    by_cases hmet : due = time ∨ due < h
    · have hmet' : due = time ∨ due < h' := by omega
      rw [if_pos hmet, if_pos hmet']
      exact ih _ due _
    · rw [if_neg hmet]
      dsimp only [Progress.advance, Waiting.advance]
      by_cases hmet' : due < h'
      · have hlater : due = time ∨ due < h' := .inr hmet'
        rw [if_pos hmet', if_pos hlater]
      · have hlater : ¬ (due = time ∨ due < h') := by omega
        rw [if_neg hmet', if_neg hlater]

theorem Waiting.advance_advance (hle : h ≤ h') (w : Waiting α) (s : Rehearsal) :
    (w.advance limit h s).1.advance limit h' (w.advance limit h s).2 = w.advance limit h' s := by
  by_cases hmet : w.due < h
  · have hmet' : w.due < h' := by omega
    unfold Waiting.advance
    rw [if_pos hmet, if_pos hmet']
    exact Activity.advance_advance hle _ _ _
  · unfold Waiting.advance
    rw [if_neg hmet]
    rfl

/-- What has been met lies before the horizon. -/
theorem Activity.lt_of_finished {a : Activity α} {time ends : Nat} {s s' : Rehearsal} {x : α}
    (hlt : time < h) (hfin : a.advance limit h time s = (.finished ends x, s')) : ends < h := by
  induction a generalizing time s with
  | done a =>
    cases hfin
    exact hlt
  | ask r next ih =>
    unfold Activity.advance at hfin
    dsimp only at hfin
    split at hfin
    · next hmet =>
      refine ih _ ?_ hfin
      omega
    · cases hfin

/-! ## Sessions -/

namespace Timeline

variable {t : Timeline} {due free : Nat} {session : Session} {w : Waiting Ticked}

/-- The session goes on with what has become of a tick, the next one being due at `due`. -/
def proceed (t : Timeline) (horizon due : Nat) : Progress Ticked × Rehearsal → Timeline
  | (.finished ends (report, session), state) =>
    { t with state, reports := report :: t.reports }.ticks horizon due ends session
  | (.waiting w, state) => { t with state, standing := .ticking due w }

/-- A tick begins. -/
theorem ticks_of_lt (hlt : max due free < h) : t.ticks h due free session =
    t.proceed h (nextDue t.settings.pollInterval due (max due free))
      ((tickAt t.start session (max due free)).advance t.settings.writeTimeout h
        (max due free) t.state) := by
  rw [ticks]
  dsimp only
  rw [if_pos hlt]
  rfl

/-- The next tick after one that starts on time is due an interval later. -/
theorem nextDue_self (interval due : Nat) : nextDue interval due due = due + interval := by
  unfold nextDue
  rw [if_neg (by omega)]

/-- A tick begins on time. -/
theorem ticks_on_time (hfree : free ≤ due) (hlt : due < h) : t.ticks h due free session =
    t.proceed h (due + t.settings.pollInterval)
      ((tickAt t.start session due).advance t.settings.writeTimeout h due t.state) := by
  have hbegins : max due free = due := Nat.max_eq_left hfree
  rw [ticks_of_lt (hbegins.symm ▸ hlt), hbegins, nextDue_self]

/-- No tick begins. -/
theorem ticks_of_le (hle : h ≤ max due free) :
    t.ticks h due free session = { t with standing := .resting due free session } := by
  rw [ticks]
  dsimp only
  rw [if_neg (Nat.not_lt.mpr hle)]

theorem advanceTo_of_resting (hstands : t.standing = .resting due free session) :
    t.advanceTo h = t.ticks h due free session := by
  unfold advanceTo
  rw [hstands]

/-- The running tick goes on. -/
theorem advanceTo_of_ticking (hstands : t.standing = .ticking due w) :
    t.advanceTo h = t.proceed h due (w.advance t.settings.writeTimeout h t.state) := by
  unfold advanceTo
  split
  · next heq =>
    rw [hstands] at heq
    cases heq
  · next heq =>
    rw [hstands] at heq
    cases heq
    rfl

/-- Where a session stood before its ticks does not matter for them. -/
theorem ticks_standing (standing : Standing) :
    { t with standing }.ticks h due free session = t.ticks h due free session := by
  fun_induction t.ticks h due free session generalizing standing with
  | case1 t due free session begins hlt next activity ends report session' state hfin ih =>
    rw [ticks_of_lt hlt]
    show proceed _ _ _ (activity.advance t.settings.writeTimeout h begins t.state) = _
    rw [hfin]
    exact ih standing
  | case2 t due free session begins hlt next activity w state hwait =>
    rw [ticks_of_lt hlt]
    show proceed _ _ _ (activity.advance t.settings.writeTimeout h begins t.state) = _
    rw [hwait]
    rfl
  | case3 t due free session begins hge => exact ticks_of_le (Nat.not_lt.mp hge)

theorem proceed_standing (standing : Standing) (state : Rehearsal)
    (p : Progress Ticked × Rehearsal) :
    { t with standing, state }.proceed h due p = t.proceed h due p := by
  obtain ⟨progress, state'⟩ := p
  cases progress with
  | finished ends res =>
    exact ticks_standing (t := { t with state := state', reports := res.1 :: t.reports }) standing
  | waiting w => rfl

theorem advanceTo_ticks (hle : h ≤ h') :
    (t.ticks h due free session).advanceTo h' = t.ticks h' due free session := by
  fun_induction t.ticks h due free session with
  | case1 t due free session begins hlt next activity ends report session' state hfin ih =>
    rw [ih, ticks_of_lt (Nat.lt_of_lt_of_le hlt hle), ← Activity.advance_advance hle]
    show _ = proceed _ _ _ (Progress.advance _ _
      (activity.advance t.settings.writeTimeout h begins t.state).1
      (activity.advance t.settings.writeTimeout h begins t.state).2)
    rw [hfin]
    rfl
  | case2 t due free session begins hlt next activity w state hwait =>
    rw [advanceTo_of_ticking rfl, ticks_of_lt (Nat.lt_of_lt_of_le hlt hle),
      ← Activity.advance_advance hle]
    show _ = proceed _ _ _ (Progress.advance _ _
      (activity.advance t.settings.writeTimeout h begins t.state).1
      (activity.advance t.settings.writeTimeout h begins t.state).2)
    rw [hwait]
    exact proceed_standing _ _ _
  | case3 t due free session begins hge =>
    rw [advanceTo_of_resting rfl]
    exact ticks_standing _

/-- To run up to a time and then on is to run on at once. -/
theorem advanceTo_advanceTo (hle : h ≤ h') : (t.advanceTo h).advanceTo h' = t.advanceTo h' := by
  cases hstands : t.standing with
  | resting due free session =>
    rw [advanceTo_of_resting hstands, advanceTo_of_resting hstands, advanceTo_ticks hle]
  | ticking due w =>
    rw [advanceTo_of_ticking hstands, advanceTo_of_ticking hstands, ← w.advance_advance hle]
    generalize w.advance t.settings.writeTimeout h t.state = p
    obtain ⟨progress, state⟩ := p
    cases progress with
    | finished ends res => exact advanceTo_ticks hle
    | waiting w' =>
      rw [proceed, advanceTo_of_ticking rfl]
      exact proceed_standing _ _ _

end Timeline

end Reveille
