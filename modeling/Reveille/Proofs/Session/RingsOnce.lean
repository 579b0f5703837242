import Reveille.Proofs.Session.Alert
import Reveille.Proofs.Session.Course

/-!
# An occurrence rings once

Over the whole course of a session no occurrence rings twice, however the clock and the alarms
change and however requests fare (`rings_once`). What carries the proof is that the handled keys
are at every point those of the occurrences that have rung; a key belongs to one occurrence,
because occurrences are full seconds.
-/

namespace Reveille

/-- What a deed adds to a log, in a session that has handled `h` before and `h'` after it. -/
inductive Adds (user : String) (h : Handled) : Entry → Handled → Prop where
  /-- Nothing rings, and what is turned down as handled has been handled. -/
  | quiet (e : Entry) (hr : e.ringing? = none) (ha : alerts e.notices = [])
      (hd : ∀ i, e.decision? = some (.alreadyHandled i) → i.nano = 0 ∧ h.Contains i) :
      Adds user h e h
  /-- An occurrence rings that has not been handled. -/
  | ringing (e : Entry) (i : Instant) (hd : e.decision? = some (.triggered i)) (hi : i.nano = 0)
      (hc : ¬ h.Contains i) (ha : (alerts e.notices).Sublist (alertsOf user i)) :
      Adds user h e (h.insert i)

namespace Scene

theorem adds_tick (s : Scene) (now : Instant) (fates : List Fate) :
    Adds s.session.user s.session.scheduler.handled (s.carryOut (.tick now) fates).1
      (s.carryOut (.tick now) fates).2.session.scheduler.handled ∧
      (s.carryOut (.tick now) fates).2.session.user = s.session.user := by
  obtain ⟨⟨_, reply, _, -, hticked⟩, xs, hxs, hsub⟩ :=
    ((s.session.tick_ensures now).and (s.session.tick_alerts now ⟨s.world, []⟩)).runWith fates
  unfold carryOut
  dsimp only
  generalize (s.session.tick now).runWith fates ⟨s.world, []⟩ = run at *
  obtain ⟨res, w⟩ := run
  dsimp only at *
  rw [alerts_nil, List.nil_append] at hxs
  rw [← hxs] at hsub
  cases hticked with
  | unread fault ws h =>
    exact ⟨.quiet _ rfl (List.sublist_nil.mp hsub) (by rintro i ⟨⟩), rfl⟩
  | read alarm res h hres =>
    cases hres with
    | refused refusal ws h =>
      exact ⟨.quiet _ rfl (List.sublist_nil.mp hsub) (by rintro i ⟨⟩), rfl⟩
    | decided d scheduler phase ws h =>
      refine ⟨?_, rfl⟩
      rcases Scheduler.evaluate_cases h with ⟨-, rfl, rfl⟩ | ⟨a, i, -, hi, hcase⟩
      · exact .quiet _ rfl (List.sublist_nil.mp hsub) (by rintro i ⟨⟩)
      have hnano := (Scheduler.ringsAt_of_nextTrigger hi).nano_eq_zero
      rcases hcase with ⟨rfl, rfl⟩ | ⟨rfl, hc, rfl⟩ | ⟨rfl, hc, rfl⟩
      · exact .quiet _ rfl (List.sublist_nil.mp hsub) (by rintro i ⟨⟩)
      · refine .quiet _ rfl (List.sublist_nil.mp hsub) ?_
        rintro j ⟨⟩
        exact ⟨hnano, hc⟩
      · exact .ringing _ i rfl hnano hc hsub

theorem adds_carryOut (s : Scene) (deed : Deed) (fates : List Fate) :
    Adds s.session.user s.session.scheduler.handled (s.carryOut deed fates).1
      (s.carryOut deed fates).2.session.scheduler.handled ∧
      (s.carryOut deed fates).2.session.user = s.session.user := by
  cases deed with
  | tick now => exact s.adds_tick now fates
  | acknowledge alarmInstant ack =>
    refine ⟨.quiet _ rfl ?_ (by rintro i ⟨⟩), rfl⟩
    exact (Watch.quiet_ensures (Acknowledger.acknowledge_asks_quiet _ _ _) ⟨s.world, []⟩).runWith
      fates
  | silence =>
    refine ⟨.quiet _ rfl ?_ (by rintro i ⟨⟩), rfl⟩
    exact (Watch.quiet_ensures Acknowledger.silence_asks_quiet ⟨s.world, []⟩).runWith fates
  | setAlarms alarms => exact ⟨.quiet _ rfl rfl (by rintro i ⟨⟩), rfl⟩
  | listen stays => exact ⟨.quiet _ rfl rfl (by rintro i ⟨⟩), rfl⟩

end Scene

/-! ## The invariant -/

/-- What a log and the session after it have in common. -/
structure RingsOnce (user : String) (log : List Entry) (s : Session) : Prop where
  user_eq : s.user = user
  /-- Occurrences are full seconds. -/
  nano_eq_zero : ∀ i ∈ rung log, i.nano = 0
  nodup : (rung log).Nodup
  handled_iff : ∀ key, key ∈ s.scheduler.handled.keys ↔ ∃ i ∈ rung log, i.unixMillis = key
  /-- What is turned down as handled has rung before. -/
  earlier : ∀ before e after i, log = before ++ e :: after →
    e.decision? = some (.alreadyHandled i) → i ∈ rung before
  /-- A deed alerts of the occurrence that rings at it. -/
  alerts_sublist : ∀ e ∈ log,
    (alerts e.notices).Sublist ((e.ringing?.map (alertsOf user)).getD [])

theorem RingsOnce.contains_iff {user : String} {log : List Entry} {s : Session} {i : Instant}
    (h : RingsOnce user log s) (hi : i.nano = 0) :
    s.scheduler.handled.Contains i ↔ i ∈ rung log := by
  unfold Handled.Contains
  rw [h.handled_iff]
  constructor
  · rintro ⟨j, hj, heq⟩
    exact Instant.eq_of_unixMillis_eq (h.nano_eq_zero j hj) hi heq ▸ hj
  · exact fun hi => ⟨i, hi, rfl⟩

/-- The last entry of a log, or one before it. -/
theorem concat_eq_append_cons {α : Type} {log before after : List α} {e e' : α}
    (h : log ++ [e'] = before ++ e :: after) :
    (before = log ∧ e = e') ∨ ∃ rest, log = before ++ e :: rest := by
  rcases after.eq_nil_or_concat with rfl | ⟨rest, x, rfl⟩
  · obtain ⟨h₁, h₂⟩ := List.append_inj' h rfl
    exact .inl ⟨h₁.symm, (List.singleton_inj.mp h₂).symm⟩
  · rw [List.concat_eq_append, ← List.cons_append, ← List.append_assoc] at h
    exact .inr ⟨rest, (List.append_inj' h rfl).1⟩

theorem RingsOnce.alerts_sublist_concat {user : String} {log : List Entry} {s : Session}
    {e : Entry} (h : RingsOnce user log s)
    (he : (alerts e.notices).Sublist ((e.ringing?.map (alertsOf user)).getD [])) :
    ∀ e' ∈ log ++ [e],
      (alerts e'.notices).Sublist ((e'.ringing?.map (alertsOf user)).getD []) := by
  intro e' he'
  rcases List.mem_append.mp he' with he' | he'
  · exact h.alerts_sublist e' he'
  · exact List.mem_singleton.mp he' ▸ he

theorem RingsOnce.earlier_concat {user : String} {log : List Entry} {s : Session} {e : Entry}
    (h : RingsOnce user log s)
    (he : ∀ i, e.decision? = some (.alreadyHandled i) → i ∈ rung log) :
    ∀ before e' after i, log ++ [e] = before ++ e' :: after →
      e'.decision? = some (.alreadyHandled i) → i ∈ rung before := by
  intro before e' after i heq hdec
  rcases concat_eq_append_cons heq with ⟨rfl, rfl⟩ | ⟨rest, hlog⟩
  · exact he i hdec
  · exact h.earlier before e' rest i hlog hdec

/-- A deed at which nothing rings. -/
theorem RingsOnce.concat_quiet {user : String} {log : List Entry} {s s' : Session} {e : Entry}
    (h : RingsOnce user log s) (hr : e.ringing? = none) (ha : alerts e.notices = [])
    (hd : ∀ i, e.decision? = some (.alreadyHandled i) →
      i.nano = 0 ∧ s.scheduler.handled.Contains i)
    (huser : s'.user = user) (hh : s'.scheduler.handled = s.scheduler.handled) :
    RingsOnce user (log ++ [e]) s' := by
  have hrung : rung (log ++ [e]) = rung log := by
    rw [rung_concat, hr]
    exact List.append_nil _
  refine ⟨huser, ?_, ?_, ?_, ?_, ?_⟩
  · rw [hrung]
    exact h.nano_eq_zero
  · rw [hrung]
    exact h.nodup
  · rw [hrung, hh]
    exact h.handled_iff
  · refine h.earlier_concat fun i hdec => ?_
    obtain ⟨hnano, hc⟩ := hd i hdec
    exact (h.contains_iff hnano).mp hc
  · refine h.alerts_sublist_concat ?_
    rw [ha]
    exact List.nil_sublist _

/-- A deed at which an occurrence rings that has not been handled. -/
theorem RingsOnce.concat_ringing {user : String} {log : List Entry} {s s' : Session} {e : Entry}
    {i : Instant} (h : RingsOnce user log s) (hd : e.decision? = some (.triggered i))
    (hi : i.nano = 0) (hc : ¬ s.scheduler.handled.Contains i)
    (ha : (alerts e.notices).Sublist (alertsOf user i)) (huser : s'.user = user)
    (hh : s'.scheduler.handled = s.scheduler.handled.insert i) :
    RingsOnce user (log ++ [e]) s' := by
  have hr : e.ringing? = some i := by
    unfold Entry.ringing?
    rw [hd]
    rfl
  have hrung : rung (log ++ [e]) = rung log ++ [i] := by
    rw [rung_concat, hr]
    rfl
  have hnew : i ∉ rung log := fun hmem => hc ((h.contains_iff hi).mpr hmem)
  refine ⟨huser, ?_, ?_, ?_, ?_, ?_⟩
  · rw [hrung]
    intro j hj
    rcases List.mem_append.mp hj with hj | hj
    · exact h.nano_eq_zero j hj
    · exact List.mem_singleton.mp hj ▸ hi
  · rw [hrung]
    refine List.nodup_append.mpr ⟨h.nodup, by simp, ?_⟩
    intro j hj k hk heq
    rw [List.mem_singleton.mp hk] at heq
    exact hnew (heq ▸ hj)
  · intro key
    rw [hrung, hh, Handled.keys_insert, List.mem_cons, h.handled_iff]
    simp only [List.mem_append, List.mem_singleton, or_and_right, exists_or, exists_eq_left]
    rw [or_comm, eq_comm (a := key)]
  · refine h.earlier_concat fun j hdec => ?_
    rw [hd] at hdec
    cases hdec
  · refine h.alerts_sublist_concat ?_
    rw [hr]
    exact ha

theorem ringsOnce_step (user : String) (log : List Entry) (s : Scene) (deed : Deed)
    (fates : List Fate) (h : RingsOnce user log s.session) :
    RingsOnce user (log ++ [(s.carryOut deed fates).1]) (s.carryOut deed fates).2.session := by
  obtain ⟨hadds, huser⟩ := s.adds_carryOut deed fates
  generalize hh : (s.carryOut deed fates).2.session.scheduler.handled = handled at hadds
  rw [h.user_eq] at hadds
  cases hadds with
  | quiet hr ha hd => exact h.concat_quiet hr ha hd (huser.trans h.user_eq) hh
  | ringing i hd hi hc ha => exact h.concat_ringing hd hi hc ha (huser.trans h.user_eq) hh

theorem ringsOnce_run (user : String) (zone : Zone) (settings : Settings) (world : World)
    (course : List (Deed × List Fate)) :
    RingsOnce user ((Scene.start user zone settings world).run course).1
      ((Scene.start user zone settings world).run course).2.session := by
  refine Scene.run_induction (motive := fun log s => RingsOnce user log s.session) ?_
    (ringsOnce_step user) course
  refine ⟨rfl, by simp [rung], by simp [rung], fun key => ?_, ?_, by simp⟩
  · simp [rung, Scene.start, Session.new, Scheduler.ofSettings, Handled.empty]
  · intro before e after i h
    simp at h

/-- A tick that is broken off alerts of one occurrence at most, and of none that has rung. -/
theorem RingsOnce.alerts_breakOff {user : String} {log : List Entry} {s : Scene}
    (h : RingsOnce user log s.session) (now : Instant) (requests : Nat) (fates : List Fate) :
    alerts (s.breakOff now requests fates) = [] ∨
      ∃ i, i ∉ rung log ∧ (alerts (s.breakOff now requests fates)).Sublist (alertsOf user i) := by
  have hnext := ringsOnce_step user log s (.tick now) fates h
  have hbegins : (alerts (s.breakOff now requests fates)).Sublist
      (alerts (s.carryOut (.tick now) fates).1.notices) :=
    (s.breakOff_prefix now requests fates).sublist.filter _
  generalize (s.carryOut (.tick now) fates).1 = e at hnext hbegins
  have halerts := hnext.alerts_sublist e (List.mem_append_right _ (List.mem_singleton_self e))
  have hnodup := hnext.nodup
  rw [rung_concat] at hnodup
  cases hr : e.ringing? with
  | none =>
    rw [hr] at halerts
    exact .inl (List.sublist_nil.mp (hbegins.trans halerts))
  | some i =>
    rw [hr] at halerts hnodup
    refine .inr ⟨i, fun hi => ?_, hbegins.trans halerts⟩
    exact (List.nodup_append.mp hnodup).2.2 i hi i (List.mem_singleton_self i) rfl

/-! ## Counting -/

theorem count_le_of_alerts_sublist {ms ns : List Notice} {n : Notice} (hn : n.isAlert = true)
    (h : (alerts ms).Sublist ns) : ms.count n ≤ ns.count n := by
  rw [← List.count_filter hn]
  exact h.count_le n

theorem count_announced_flatMap (user : String) (i : Instant) : ∀ is : List Instant,
    (is.flatMap (alertsOf user)).count (.announced ⟨user, i⟩) = is.count i
  | [] => rfl
  | j :: is => by
    rw [List.flatMap_cons, List.count_append, count_announced_flatMap user i is, List.count_cons]
    by_cases h : j = i <;> simp [alertsOf, h, Nat.add_comm]

/-- The alerts of a log are among those of the occurrences that have rung. -/
theorem alerts_noticed_sublist {user : String} : ∀ {log : List Entry},
    (∀ e ∈ log, (alerts e.notices).Sublist ((e.ringing?.map (alertsOf user)).getD [])) →
    (alerts (noticed log)).Sublist ((rung log).flatMap (alertsOf user))
  | [], _ => List.Sublist.slnil
  | e :: log, h => by
    have hlog := alerts_noticed_sublist fun e' he' => h e' (List.mem_cons_of_mem _ he')
    have he := h e List.mem_cons_self
    have hn : noticed (e :: log) = e.notices ++ noticed log := List.flatMap_cons ..
    have hr : (rung (e :: log)).flatMap (alertsOf user) =
        (e.ringing?.map (alertsOf user)).getD [] ++ (rung log).flatMap (alertsOf user) := by
      unfold rung
      rw [List.filterMap_cons]
      cases e.ringing? <;> simp
    rw [hn, hr, alerts_append]
    exact he.append hlog

/-- The alarm loop starts no more often for an occurrence than the occurrence rings. -/
theorem count_playAlarm_le {user : String} (i : Instant) : ∀ {log : List Entry},
    (∀ e ∈ log, (alerts e.notices).Sublist ((e.ringing?.map (alertsOf user)).getD [])) →
    (noticed (log.filter (·.ringing? = some i))).count (.sounded .playAlarm none) ≤
      (rung log).count i
  | [], _ => Nat.le_refl _
  | e :: log, h => by
    have hlog := count_playAlarm_le i fun e' he' => h e' (List.mem_cons_of_mem _ he')
    have he := count_le_of_alerts_sublist (n := .sounded .playAlarm none) rfl
      (h e List.mem_cons_self)
    have hr : (rung (e :: log)).count i = e.ringing?.toList.count i + (rung log).count i := by
      unfold rung
      rw [List.filterMap_cons]
      cases e.ringing? <;> simp [List.count_cons, Nat.add_comm]
    rw [hr]
    by_cases hi : e.ringing? = some i
    · have hn : noticed ((e :: log).filter (·.ringing? = some i)) =
          e.notices ++ noticed (log.filter (·.ringing? = some i)) := by
        rw [List.filter_cons_of_pos (by simpa using hi)]
        exact List.flatMap_cons ..
      rw [hn, List.count_append, hi]
      rw [hi] at he
      simp only [Option.map_some, Option.getD_some, alertsOf] at he
      simp at he ⊢
      omega
    · rw [List.filter_cons_of_neg (by simpa using hi)]
      exact Nat.le_trans hlog (Nat.le_add_left _ _)

/-! ## The theorem -/

/-- In every course of a session no occurrence rings twice : it is announced at most once, the
alarm loop starts at most once for it, and nothing is announced or started when nothing rings; a
last tick that is broken off alerts only of an occurrence that has not rung. The handled keys are
those of the occurrences that have rung, an occurrence is turned down as handled only after it has
rung, and no two occurrences that a scheduler can wait for have the same key. -/
theorem rings_once (user : String) (zone : Zone) (settings : Settings) (world : World)
    (course : List (Deed × List Fate)) :
    let log := ((Scene.start user zone settings world).run course).1
    let scene := ((Scene.start user zone settings world).run course).2
    (rung log).Nodup ∧
      (∀ i, (noticed log).count (.announced ⟨user, i⟩) ≤ 1) ∧
      (∀ i, (noticed (log.filter (·.ringing? = some i))).count (.sounded .playAlarm none) ≤ 1) ∧
      (∀ e ∈ log, e.ringing? = none → alerts e.notices = []) ∧
      (∀ now requests fates, alerts (scene.breakOff now requests fates) = [] ∨
        ∃ i, i ∉ rung log ∧
          (alerts (scene.breakOff now requests fates)).Sublist (alertsOf user i)) ∧
      (∀ key, key ∈ scene.session.scheduler.handled.keys ↔ ∃ i ∈ rung log, i.unixMillis = key) ∧
      (∀ before e after i, log = before ++ e :: after →
        e.decision? = some (.alreadyHandled i) → i ∈ rung before) ∧
      ∀ (s s' : Scheduler) (alarm alarm' : Alarm) (zone zone' : Zone) (now now' i j : Instant),
        s.nextTrigger alarm zone now = .ok i → s'.nextTrigger alarm' zone' now' = .ok j →
        i.unixMillis = j.unixMillis → i = j := by
  intro log scene
  have h : RingsOnce user log scene.session := ringsOnce_run user zone settings world course
  refine ⟨h.nodup, fun i => ?_, fun i => ?_, fun e he hr => ?_, h.alerts_breakOff, h.handled_iff,
    h.earlier, ?_⟩
  · calc (noticed log).count (.announced ⟨user, i⟩)
        ≤ ((rung log).flatMap (alertsOf user)).count (.announced ⟨user, i⟩) :=
          count_le_of_alerts_sublist rfl (alerts_noticed_sublist h.alerts_sublist)
      _ = (rung log).count i := count_announced_flatMap user i _
      _ ≤ 1 := List.nodup_iff_count.mp h.nodup i
  · exact Nat.le_trans (count_playAlarm_le i h.alerts_sublist)
      (List.nodup_iff_count.mp h.nodup i)
  · have := h.alerts_sublist e he
    rw [hr] at this
    exact List.sublist_nil.mp this
  · intro s s' alarm alarm' zone zone' now now' i j hi hj heq
    exact Instant.eq_of_unixMillis_eq (Scheduler.ringsAt_of_nextTrigger hi).nano_eq_zero
      (Scheduler.ringsAt_of_nextTrigger hj).nano_eq_zero heq

/-- Midnight at 05:30 east, looked at before and after it while the wake-ups cannot be saved,
and again with the clock set back : it rings once. -/
theorem rings_once_midnight :
    let midnight : Instant := ⟨1781116200, 0, by decide, by decide, by decide, by decide⟩
    let before : Instant := ⟨1781116180, 0, by decide, by decide, by decide, by decide⟩
    let after : Instant := ⟨1781116205, 0, by decide, by decide, by decide, by decide⟩
    let world : World :=
      .new ⟨"config", ⟨.defaults, [⟨"ada", ⟨0, 0⟩⟩]⟩, none⟩ ⟨"wakeups", .empty, none⟩
    let course : List (Deed × List Fate) :=
      [(.tick before, [.answered, .answered, .unwritten .isDirectory]),
        (.tick after, [.down "busy"]), (.tick before, [])]
    let log := ((Scene.start "ada" (.fixed 19800) .defaults world).run course).1
    rung log = [midnight] ∧ (noticed log).count (.announced ⟨"ada", midnight⟩) ≤ 1 := by
  intro midnight before after world course log
  have hrung : rung log = [midnight] := by decide +kernel
  exact ⟨hrung, (rings_once "ada" (.fixed 19800) .defaults world course).2.1 midnight⟩

end Reveille
