import Reveille.Proofs.Scheduler.Decision

/-!
# The firing law

In a zone with one offset, and with tolerance and lookback of at most a day together, a
scheduler decides at each look as if it knew the occurrences of the alarm (`Scheduler.Due`) :
one is found exactly if it lies within the tolerance of the present and less than the lookback
in the past (`due_iff`). The search from the anchor never looks for the nearest occurrence, but
the day after the anchor reaches over the whole window and holds one occurrence only.

`Scheduler.firing_law` says what is decided at every look of a sequence : an occurrence rings at
the first look at which it is due, and at no other.
-/

namespace Reveille

/-- A look at the clock : the alarm that is set then, and what the clock shows. -/
structure Look where
  alarm : Alarm
  now : Instant
  deriving DecidableEq

namespace Scheduler

variable {s : Scheduler} {offset : Int} {l : Look} {looks : List Look} {i j : Instant}

/-! ## Looks -/

/-- The decisions at looks, one after the other. -/
def decisions (s : Scheduler) (zone : Zone) : List Look → List (Except Refusal Decision)
  | [] => []
  | l :: looks =>
    match s.evaluate zone l.now (some l.alarm) with
    | .ok (d, s) => .ok d :: s.decisions zone looks
    | .error refusal => .error refusal :: s.decisions zone looks

/-- The occurrences that ring at looks, one after the other. -/
def rung (s : Scheduler) (zone : Zone) (looks : List Look) : List Instant :=
  (s.decisions zone looks).filterMap fun d => d.toOption.bind Decision.ringing?

/-- The occurrence is one of the alarm, within the tolerance of the present and less than the
lookback in the past. -/
def Due (s : Scheduler) (zone : Zone) (l : Look) (i : Instant) : Prop :=
  l.alarm.RingsAt zone i ∧ (l.now.since i).abs ≤ s.tolerance ∧ l.now.since i < s.lookback

instance (s : Scheduler) (zone : Zone) (l : Look) (i : Instant) : Decidable (s.Due zone l i) :=
  inferInstanceAs (Decidable (_ ∧ _ ∧ _))

/-- The clock shows no leap second, and the present less the lookback and the day after it are
in range. -/
def HasRoom (s : Scheduler) (zone : Zone) (l : Look) : Prop :=
  ¬ l.now.IsLeap ∧ ∃ anchor ∈ l.now.shift? (-s.lookback), Alarm.DayInRange zone anchor

instance (s : Scheduler) (zone : Zone) (l : Look) : Decidable (s.HasRoom zone l) :=
  inferInstanceAs (Decidable (_ ∧ ∃ anchor ∈ l.now.shift? (-s.lookback), _))

/-- What is due, and whether there is room, does not depend on what is handled. -/
theorem due_of_evaluate {zone : Zone} {now : Instant} {alarm? : Option Alarm} {d : Decision}
    {s' : Scheduler} (h : s.evaluate zone now alarm? = .ok (d, s')) :
    s'.Due zone = s.Due zone ∧ s'.HasRoom zone = s.HasRoom zone ∧
      s'.tolerance = s.tolerance ∧ s'.lookback = s.lookback := by
  rcases evaluate_cases h with ⟨-, -, rfl⟩ | ⟨alarm, i, -, -, hcase⟩
  · exact ⟨rfl, rfl, rfl, rfl⟩
  · rcases hcase with ⟨-, rfl⟩ | ⟨-, -, rfl⟩ | ⟨-, -, rfl⟩ <;> exact ⟨rfl, rfl, rfl, rfl⟩

/-- After a look the scheduler can go on to the other looks. -/
theorem rest_of_evaluate {d : Decision} {s' : Scheduler}
    (h : s.evaluate (.fixed offset) l.now (some l.alarm) = .ok (d, s'))
    (hday : s.tolerance + s.lookback ≤ Span.day)
    (hroom : ∀ k ∈ l :: looks, s.HasRoom (.fixed offset) k) :
    s'.tolerance + s'.lookback ≤ Span.day ∧ ∀ k ∈ looks, s'.HasRoom (.fixed offset) k := by
  obtain ⟨-, hroom', htol, hlook⟩ := due_of_evaluate h
  rw [hroom', htol, hlook]
  exact ⟨hday, fun k hk => hroom k (List.mem_cons_of_mem l hk)⟩

/-! ## One look -/

/-- The occurrence that is waited for lies in the day after the present less the lookback. -/
theorem nextTrigger_fixed (h : s.HasRoom (.fixed offset) l) :
    ∃ i, s.nextTrigger l.alarm (.fixed offset) l.now = .ok i ∧ l.alarm.RingsAt (.fixed offset) i ∧
      l.now.unixNanos - s.lookback < i.unixNanos ∧
      i.unixNanos ≤ l.now.unixNanos - s.lookback + Span.day := by
  obtain ⟨hleap, anchor, hanchor, hday⟩ := h
  obtain ⟨hleap', hshift⟩ := (Instant.shift?_eq_some_iff hleap).mp hanchor
  obtain ⟨i, hi, hrings, hafter, hbefore⟩ := l.alarm.nextAfter_fixed hleap' hday
  refine ⟨i, ?_, hrings, ?_, ?_⟩
  · unfold nextTrigger
    rw [hanchor]
    exact hi
  · unfold Span at *
    omega
  · unfold Span at *
    omega

/-- What is waited for is the only occurrence that can be due, and is due if it is within the
tolerance. -/
theorem due_iff (hday : s.tolerance + s.lookback ≤ Span.day) (hleap : ¬ l.now.IsLeap)
    (hj : l.alarm.RingsAt (.fixed offset) j) (hafter : l.now.unixNanos - s.lookback < j.unixNanos)
    (hbefore : j.unixNanos ≤ l.now.unixNanos - s.lookback + Span.day) :
    s.Due (.fixed offset) l i ↔ i = j ∧ (l.now.since j).abs ≤ s.tolerance := by
  unfold Due
  constructor
  · rintro ⟨hi, hnear, hpast⟩
    have hij : i = j := by
      rw [Instant.abs_since_le_iff hleap hi.not_isLeap] at hnear
      rw [Instant.since_lt_iff hleap hi.not_isLeap] at hpast
      refine hi.eq_of_within_day hj ?_ ⟨hafter, hbefore⟩
      unfold Span at *
      omega
    exact ⟨hij, hij ▸ hnear⟩
  · rintro ⟨rfl, hnear⟩
    refine ⟨hj, hnear, (Instant.since_lt_iff hleap hj.not_isLeap).mpr ?_⟩
    unfold Span at *
    omega

/-- What is decided at a look : on the occurrence that is due, if there is one, and the
scheduler after it. -/
theorem evaluate_fixed (hday : s.tolerance + s.lookback ≤ Span.day)
    (h : s.HasRoom (.fixed offset) l) :
    ∃ j d s', s.evaluate (.fixed offset) l.now (some l.alarm) = .ok (d, s') ∧ j.nano = 0 ∧
      ((d = .notImminent j ∧ s' = s ∧ ∀ i, ¬ s.Due (.fixed offset) l i) ∨
        (d = .alreadyHandled j ∧ s' = s ∧ s.handled.Contains j ∧
          ∀ i, s.Due (.fixed offset) l i ↔ i = j) ∨
        (d = .triggered j ∧ s' = s.handling j ∧ ¬ s.handled.Contains j ∧
          ∀ i, s.Due (.fixed offset) l i ↔ i = j)) := by
  obtain ⟨j, hj, hrings, hafter, hbefore⟩ := nextTrigger_fixed h
  have hdue := fun i => due_iff (i := i) hday h.1 hrings hafter hbefore
  refine ⟨j, (s.decide j l.now).1, (s.decide j l.now).2, evaluate_of_nextTrigger hj,
    hrings.nano_eq_zero, ?_⟩
  rcases s.decide_cases j l.now with ⟨hfar, hd⟩ | ⟨hnear, hc, hd⟩ | ⟨hnear, hc, hd⟩ <;> rw [hd]
  · refine .inl ⟨rfl, rfl, fun i hi => hfar ((hdue i).mp hi).2⟩
  · exact .inr (.inl ⟨rfl, rfl, hc, fun i => (hdue i).trans (and_iff_left hnear)⟩)
  · exact .inr (.inr ⟨rfl, rfl, hc, fun i => (hdue i).trans (and_iff_left hnear)⟩)

/-! ## Looks one after the other -/

/-- The decision at a look at which the occurrences `due` are due, those of `before` having
been due before. -/
structure DecisionOn (due before : Instant → Prop) (d : Decision) : Prop where
  found : ∀ i, (d = .triggered i ∨ d = .alreadyHandled i) ↔ due i
  unique : ∀ i j, due i → due j → i = j
  otherwise : (∃ i, d = .notImminent i) ↔ ∀ i, ¬ due i
  first : ∀ i, d = .triggered i ↔ due i ∧ ¬ before i

namespace DecisionOn

variable {due before before' : Instant → Prop} {d : Decision}

theorem of_none (h : ∀ i, ¬ due i) : DecisionOn due before (.notImminent j) := by
  refine ⟨?_, fun i _ hi => absurd hi (h i), ?_, ?_⟩
  · simp [h]
  · simp [h]
  · simp [h]

theorem of_before (h : ∀ i, due i ↔ i = j) (hb : before j) :
    DecisionOn due before (.alreadyHandled j) := by
  refine ⟨?_, fun i k hi hk => ((h i).mp hi).trans ((h k).mp hk).symm, ?_, fun i => ?_⟩
  · simp [h, eq_comm]
  · simp [h]
  · rw [h]
    refine ⟨by rintro ⟨⟩, ?_⟩
    rintro ⟨rfl, hi⟩
    exact absurd hb hi

theorem of_new (h : ∀ i, due i ↔ i = j) (hb : ¬ before j) :
    DecisionOn due before (.triggered j) := by
  refine ⟨?_, fun i k hi hk => ((h i).mp hi).trans ((h k).mp hk).symm, ?_, fun i => ?_⟩
  · simp [h, eq_comm]
  · simp [h]
  · rw [h, Decision.triggered.injEq]
    refine ⟨?_, fun hi => hi.1.symm⟩
    rintro rfl
    exact ⟨rfl, hb⟩

theorem congr_before (h : DecisionOn due before d) (hb : ∀ i, due i → (before i ↔ before' i)) :
    DecisionOn due before' d :=
  ⟨h.found, h.unique, h.otherwise, fun i =>
    (h.first i).trans (and_congr_right fun hi => not_congr (hb i hi))⟩

end DecisionOn

/-- One look decides on what is due, and what is due then is handled after it. -/
theorem evaluate_decisionOn (hday : s.tolerance + s.lookback ≤ Span.day)
    (h : s.HasRoom (.fixed offset) l) :
    ∃ d s', s.evaluate (.fixed offset) l.now (some l.alarm) = .ok (d, s') ∧
      DecisionOn (s.Due (.fixed offset) l) s.handled.Contains d ∧
      ∀ i, i.nano = 0 →
        (s'.handled.Contains i ↔ s.Due (.fixed offset) l i ∨ s.handled.Contains i) := by
  obtain ⟨j, d, s', he, hj, ⟨rfl, rfl, hnone⟩ | ⟨rfl, rfl, hc, hdue⟩ | ⟨rfl, rfl, hc, hdue⟩⟩ :=
    evaluate_fixed hday h
  · exact ⟨_, _, he, .of_none hnone, fun i _ => (or_iff_right (hnone i)).symm⟩
  · refine ⟨_, _, he, .of_before hdue hc, fun i _ => ?_⟩
    rw [hdue]
    refine ⟨.inr, ?_⟩
    rintro (rfl | hi)
    · exact hc
    · exact hi
  · refine ⟨_, _, he, .of_new hdue hc, fun i hi => ?_⟩
    rw [hdue, handled_handling, Handled.contains_insert_iff hj hi]

theorem decisions_cons {d : Decision} {s' : Scheduler} {zone : Zone}
    (h : s.evaluate zone l.now (some l.alarm) = .ok (d, s')) (looks : List Look) :
    s.decisions zone (l :: looks) = .ok d :: s'.decisions zone looks := by
  rw [decisions, h]

theorem rung_cons {d : Decision} {s' : Scheduler} {zone : Zone}
    (h : s.evaluate zone l.now (some l.alarm) = .ok (d, s')) (looks : List Look) :
    s.rung zone (l :: looks) = d.ringing?.toList ++ s'.rung zone looks := by
  unfold rung
  rw [decisions_cons h]
  cases hd : d.ringing? <;> simp [hd, Except.toOption]

/-- The decision at each look, the occurrences handled at the start counting as due before. -/
theorem decisions_decisionOn : ∀ (looks : List Look) (s : Scheduler),
    s.tolerance + s.lookback ≤ Span.day → (∀ l ∈ looks, s.HasRoom (.fixed offset) l) →
    ∀ n l, looks[n]? = some l → ∃ d, (s.decisions (.fixed offset) looks)[n]? = some (.ok d) ∧
      DecisionOn (s.Due (.fixed offset) l) (fun i => s.handled.Contains i ∨
        ∃ l' ∈ looks.take n, s.Due (.fixed offset) l' i) d
  | [], _, _, _, _, _, h => by simp at h
  | l :: looks, s, hday, hroom, n, l', hn => by
    obtain ⟨d, s', he, hd, hc⟩ := evaluate_decisionOn hday (hroom l (by simp))
    rw [decisions_cons he]
    cases n with
    | zero =>
      obtain rfl : l = l' := by simpa using hn
      exact ⟨d, rfl, hd.congr_before (by simp)⟩
    | succ n =>
      obtain ⟨hday', hrest⟩ := rest_of_evaluate he hday hroom
      obtain ⟨e, he', hon⟩ := decisions_decisionOn looks s' hday' hrest n l' (by simpa using hn)
      rw [(due_of_evaluate he).1] at hon
      refine ⟨e, by simpa using he', hon.congr_before fun i hi => ?_⟩
      rw [hc i hi.1.nano_eq_zero, List.take_succ_cons]
      simp only [List.mem_cons, exists_eq_or_imp]
      rw [or_comm (a := s.Due (.fixed offset) l i), or_assoc]

theorem length_decisions (zone : Zone) : ∀ (looks : List Look) (s : Scheduler),
    (s.decisions zone looks).length = looks.length
  | [], _ => rfl
  | l :: looks, s => by
    unfold decisions
    split <;> simp [length_decisions zone looks]

theorem mem_toList_ringing {d : Decision} : i ∈ d.ringing?.toList ↔ d = .triggered i := by
  cases d <;> simp [Decision.ringing?, eq_comm]

/-- An occurrence rings at most once, and rings exactly if it is due at some look and was not
handled at the start. -/
theorem rung_fixed : ∀ (looks : List Look) (s : Scheduler),
    s.tolerance + s.lookback ≤ Span.day → (∀ l ∈ looks, s.HasRoom (.fixed offset) l) →
    (s.rung (.fixed offset) looks).Nodup ∧ ∀ i, i ∈ s.rung (.fixed offset) looks ↔
      (∃ l ∈ looks, s.Due (.fixed offset) l i) ∧ ¬ s.handled.Contains i
  | [], _, _, _ => by simp [rung, decisions]
  | l :: looks, s, hday, hroom => by
    obtain ⟨d, s', he, hd, hc⟩ := evaluate_decisionOn hday (hroom l List.mem_cons_self)
    obtain ⟨hday', hrest⟩ := rest_of_evaluate he hday hroom
    obtain ⟨hnodup, hmem⟩ := rung_fixed looks s' hday' hrest
    have hfirst : ∀ i, i ∈ d.ringing?.toList ↔
        s.Due (.fixed offset) l i ∧ ¬ s.handled.Contains i :=
      fun i => mem_toList_ringing.trans (hd.first i)
    -- What rings later is not due at this look, for then it is handled.
    have hlater : ∀ i, i ∈ s'.rung (.fixed offset) looks ↔
        (∃ k ∈ looks, s.Due (.fixed offset) k i) ∧
          ¬ (s.Due (.fixed offset) l i ∨ s.handled.Contains i) := by
      intro i
      rw [hmem, (due_of_evaluate he).1]
      refine and_congr_right ?_
      rintro ⟨k, -, hi⟩
      rw [hc i hi.1.nano_eq_zero]
    have hone : d.ringing?.toList.Nodup := by cases d.ringing? <;> simp
    rw [rung_cons he]
    refine ⟨List.nodup_append.mpr ⟨hone, hnodup, ?_⟩, fun i => ?_⟩
    · rintro i hi j hj rfl
      exact ((hlater i).mp hj).2 (.inl ((hfirst i).mp hi).1)
    · rw [List.mem_append, hfirst, hlater]
      simp only [List.mem_cons, exists_eq_or_imp]
      by_cases hnow : s.Due (.fixed offset) l i <;> simp [hnow]

/-! ## The law -/

/-- In a zone with one offset, with tolerance and lookback of at most a day together : at each of a
sequence of looks an occurrence is found exactly if it is due then, there is at most one, and
if there is none the next occurrence is not imminent; an occurrence rings at the first look at
which it is due. So over the sequence it rings once if it is due at some look, else never. -/
theorem firing_law (offset : Int) (tolerance lookback : Span)
    (hday : tolerance + lookback ≤ Span.day) (looks : List Look)
    (hroom : ∀ l ∈ looks, HasRoom ⟨tolerance, lookback, .empty⟩ (.fixed offset) l) :
    let s : Scheduler := ⟨tolerance, lookback, .empty⟩
    (s.decisions (.fixed offset) looks).length = looks.length ∧
      (∀ n l, looks[n]? = some l →
        ∃ d, (s.decisions (.fixed offset) looks)[n]? = some (.ok d) ∧
          DecisionOn (s.Due (.fixed offset) l)
            (fun i => ∃ l' ∈ looks.take n, s.Due (.fixed offset) l' i) d) ∧
      (s.rung (.fixed offset) looks).Nodup ∧
      ∀ i, i ∈ s.rung (.fixed offset) looks ↔ ∃ l ∈ looks, s.Due (.fixed offset) l i := by
  intro s
  obtain ⟨hnodup, hmem⟩ := rung_fixed looks s hday hroom
  refine ⟨length_decisions _ looks s, fun n l hn => ?_, hnodup, fun i => ?_⟩
  · obtain ⟨d, hd, hon⟩ := decisions_decisionOn looks s hday hroom n l hn
    refine ⟨d, hd, hon.congr_before fun i _ => or_iff_right ?_⟩
    exact Handled.not_contains_empty i
  · rw [hmem]
    exact and_iff_left (Handled.not_contains_empty i)

/-- Midnight at 05:30 east, looked at twenty seconds before it and five seconds after it : it
rings once. -/
theorem firing_law_midnight :
    let s : Scheduler := ⟨.ofSeconds 30, .ofSeconds 60, .empty⟩
    let midnight : Instant := ⟨1781116200, 0, by decide, by decide, by decide, by decide⟩
    let looks : List Look :=
      [⟨⟨0, 0⟩, ⟨1781116180, 0, by decide, by decide, by decide, by decide⟩⟩,
        ⟨⟨0, 0⟩, ⟨1781116205, 0, by decide, by decide, by decide, by decide⟩⟩]
    s.tolerance + s.lookback ≤ Span.day ∧ (∀ l ∈ looks, s.HasRoom (.fixed 19800) l) ∧
      (s.rung (.fixed 19800) looks).Nodup ∧ midnight ∈ s.rung (.fixed 19800) looks := by
  intro s midnight looks
  have hday : s.tolerance + s.lookback ≤ Span.day := by decide
  have hroom : ∀ l ∈ looks, s.HasRoom (.fixed 19800) l := by decide
  obtain ⟨-, -, hnodup, hmem⟩ :=
    firing_law 19800 (.ofSeconds 30) (.ofSeconds 60) hday looks hroom
  have hdue : ∃ l ∈ looks, s.Due (.fixed 19800) l midnight := by decide
  exact ⟨hday, hroom, hnodup, (hmem midnight).mpr hdue⟩

end Scheduler

end Reveille
