import Mathlib.Data.List.Chain
import Mathlib.Logic.Relation
import Reveille.Phase
import Reveille.Records
import Reveille.Proofs.UnixScale

/-!
# The phase of one occurrence

Looked at again and again, an occurrence goes one way : it is active, then missed, unless it is
acknowledged before; then it shows as acknowledged until it is a day old, and not at all after
that. What carries this is that nothing it depends on goes back (`Observation.LeadsTo`) : time
passes, the alarm does not start again, and a record that is acknowledged stays so. So the
observations at which it is active are those up to some point (`Observation.IsActive.of_leadsTo`),
and likewise those at which it is not acknowledged yet, and those at which it shows as
acknowledged (`AckPolicy.moves_one_way`).
-/

namespace Reveille

/-! ## Acknowledged records -/

namespace Wakeup

variable {v w : Wakeup}

theorem isAcknowledged_merge (v w : Wakeup) :
    (v.merge w).isAcknowledged = (v.isAcknowledged || w.isAcknowledged) := by
  unfold isAcknowledged merge
  cases v.acknowledgment <;> rfl

theorem isAcknowledged_acknowledge {ack : Acknowledgment} (h : v.acknowledge ack = .ok w) :
    w.isAcknowledged = true := by
  obtain ⟨-, rfl⟩ := acknowledge_eq_ok_iff.mp h
  rfl

/-- A record is acknowledged, or a wake-up is joined to it. -/
inductive Updates (v : Wakeup) : Wakeup → Prop where
  | acknowledge {w : Wakeup} (ack : Acknowledgment) (h : v.acknowledge ack = .ok w) : Updates v w
  | merge (incoming : Wakeup) : Updates v (v.merge incoming)

/-- However often a record is updated, it stays acknowledged. -/
theorem isAcknowledged_of_updates (h : Relation.ReflTransGen Updates v w)
    (hv : v.isAcknowledged = true) : w.isAcknowledged = true := by
  induction h with
  | refl => exact hv
  | tail _ hstep ih =>
    cases hstep with
    | acknowledge ack hack => exact isAcknowledged_acknowledge hack
    | merge incoming => rw [isAcknowledged_merge, ih, Bool.true_or]

end Wakeup

/-! ## Observations -/

/-- What is found when an occurrence is looked at while an alarm is set. -/
structure Observation where
  now : Instant
  /-- The alarm is to be heard. -/
  ringing : Bool
  /-- The record of the occurrence. -/
  record : Wakeup
  /-- The next occurrence of the alarm. -/
  next : Instant
  deriving DecidableEq

namespace Observation

variable {o o' : Observation} {i : Instant} {policy : AckPolicy}

/-- The observation is of the occurrence, not before it, and not in a leap second. -/
structure IsOf (o : Observation) (i : Instant) : Prop where
  record : o.record.alarmInstant = i
  le_now : i ≤ o.now
  not_isLeap : ¬ o.now.IsLeap

/-- The one observation can be followed by the other : time does not go back, the alarm does not
start again, and the record changes by updates only. -/
structure LeadsTo (o o' : Observation) : Prop where
  now_le : o.now ≤ o'.now
  ringing : o'.ringing = true → o.ringing = true
  record : Relation.ReflTransGen Wakeup.Updates o.record o'.record

instance : Trans LeadsTo LeadsTo LeadsTo where
  trans h h' := ⟨Instant.le_trans h.now_le h'.now_le, fun hr => h.ringing (h'.ringing hr),
    h.record.trans h'.record⟩

/-- The phase that is found at an observation. -/
def phase (policy : AckPolicy) (o : Observation) : Phase :=
  policy.phase (some o.next) (some o.record) o.ringing o.now

/-- The occurrence is active. -/
def IsActive (policy : AckPolicy) (o : Observation) : Prop :=
  policy.IsActive o.record o.ringing o.now

/-- The occurrence is acknowledged and less than a day old. -/
def IsFresh (o : Observation) : Prop := AckPolicy.IsFresh o.record o.now

instance (policy : AckPolicy) (o : Observation) : Decidable (o.IsActive policy) :=
  inferInstanceAs (Decidable (policy.IsActive o.record o.ringing o.now))

instance (o : Observation) : Decidable o.IsFresh :=
  inferInstanceAs (Decidable (AckPolicy.IsFresh o.record o.now))

/-! ### What is shown -/

theorem phase_eq (policy : AckPolicy) (o : Observation) : o.phase policy =
    if o.IsActive policy then .active o.record.alarmInstant
    else if o.IsFresh then .acknowledged o.record.alarmInstant
    else .alarmSet o.next := by
  have hset : (some o.next).isSome = true ∧ AckPolicy.IsFresh o.record o.now ↔ o.IsFresh :=
    and_iff_right rfl
  unfold phase AckPolicy.phase
  simp only [hset]
  rfl

theorem phase_of_isActive (h : o.IsActive policy) :
    o.phase policy = .active o.record.alarmInstant := by
  rw [phase_eq, if_pos h]

theorem not_isActive_of_isAcknowledged (h : o.record.isAcknowledged = true) :
    ¬ o.IsActive policy := by
  rintro ⟨hpending, -⟩
  rw [h] at hpending
  cases hpending

theorem phase_of_isFresh (h : o.IsFresh) :
    o.phase policy = .acknowledged o.record.alarmInstant := by
  rw [phase_eq, if_neg (not_isActive_of_isAcknowledged h.1), if_pos h]

theorem phase_of_not (hactive : ¬ o.IsActive policy) (hfresh : ¬ o.IsFresh) :
    o.phase policy = .alarmSet o.next := by
  rw [phase_eq, if_neg hactive, if_neg hfresh]

theorem phase_eq_active_iff (h : o.IsOf i) : o.phase policy = .active i ↔ o.IsActive policy := by
  obtain ⟨rfl, -, -⟩ := h
  refine ⟨fun heq => ?_, phase_of_isActive⟩
  by_cases hactive : o.IsActive policy
  · exact hactive
  by_cases hfresh : o.IsFresh
  · rw [phase_of_isFresh hfresh] at heq
    cases heq
  · rw [phase_of_not hactive hfresh] at heq
    cases heq

theorem phase_eq_acknowledged_iff (h : o.IsOf i) :
    o.phase policy = .acknowledged i ↔ o.IsFresh := by
  obtain ⟨rfl, -, -⟩ := h
  refine ⟨fun heq => ?_, phase_of_isFresh⟩
  by_cases hfresh : o.IsFresh
  · exact hfresh
  by_cases hactive : o.IsActive policy
  · rw [phase_of_isActive hactive] at heq
    cases heq
  · rw [phase_of_not hactive hfresh] at heq
    cases heq

/-! ### What does not come back -/

theorem isAcknowledged_of_leadsTo (h : o.LeadsTo o') (ho : o.record.isAcknowledged = true) :
    o'.record.isAcknowledged = true :=
  Wakeup.isAcknowledged_of_updates h.record ho

/-- An occurrence that is active has been so before. -/
theorem IsActive.of_leadsTo (hleap : ¬ i.IsLeap) (ho : o.IsOf i) (ho' : o'.IsOf i)
    (h : o.LeadsTo o') (hactive : o'.IsActive policy) : o.IsActive policy := by
  obtain ⟨hpending, hshown⟩ := hactive
  have hearlier : o.record.isAcknowledged = false := by
    rw [Bool.eq_false_iff]
    intro hack
    rw [isAcknowledged_of_leadsTo h hack] at hpending
    cases hpending
  refine ⟨hearlier, hshown.imp (fun hnear => ?_) h.ringing⟩
  have hpassed := (Instant.le_iff_unixNanos_le ho.not_isLeap ho'.not_isLeap).mp h.now_le
  have hafter := (Instant.le_iff_unixNanos_le hleap ho.not_isLeap).mp ho.le_now
  rw [ho'.record, Instant.abs_since_le_iff ho'.not_isLeap hleap] at hnear
  rw [ho.record, Instant.abs_since_le_iff ho.not_isLeap hleap]
  unfold Span at *
  omega

/-- An acknowledged occurrence that is less than a day old has been less than a day old before. -/
theorem IsFresh.of_leadsTo (hleap : ¬ i.IsLeap) (ho : o.IsOf i) (ho' : o'.IsOf i) (h : o.LeadsTo o')
    (hack : o.record.isAcknowledged = true) (hfresh : o'.IsFresh) : o.IsFresh := by
  have hpassed := (Instant.le_iff_unixNanos_le ho.not_isLeap ho'.not_isLeap).mp h.now_le
  have hnear := hfresh.2
  rw [ho'.record, Instant.since_lt_iff ho'.not_isLeap hleap] at hnear
  refine ⟨hack, ?_⟩
  rw [ho.record, Instant.since_lt_iff ho.not_isLeap hleap]
  omega

/-- A wider window leaves active what is active. -/
theorem IsActive.widen {wider : AckPolicy} (h : policy.window ≤ wider.window)
    (hactive : o.IsActive policy) : o.IsActive wider :=
  ⟨hactive.1, hactive.2.imp_left fun hnear => Int.le_trans hnear h⟩

end Observation

/-! ## Parts of a list -/

/-- If what holds of an element holds of those before it, it holds up to some point. -/
theorem exists_split {α : Type} {p : α → Prop} [DecidablePred p] : ∀ {l : List α},
    (l.Pairwise fun a b => p b → p a) →
    ∃ l₁ l₂, l = l₁ ++ l₂ ∧ (∀ a ∈ l₁, p a) ∧ ∀ a ∈ l₂, ¬ p a
  | [], _ => ⟨[], [], rfl, by simp, by simp⟩
  | a :: l, h => by
    obtain ⟨ha, hl⟩ := List.pairwise_cons.mp h
    by_cases hp : p a
    · obtain ⟨l₁, l₂, rfl, h₁, h₂⟩ := exists_split hl
      exact ⟨a :: l₁, l₂, rfl, List.forall_mem_cons.mpr ⟨hp, h₁⟩, h₂⟩
    · exact ⟨[], a :: l, rfl, by simp,
        List.forall_mem_cons.mpr ⟨hp, fun b hb hpb => hp (ha b hb hpb)⟩⟩

/-! ## The theorem -/

namespace AckPolicy

/-- For any window, negative ones included, and any observations of an occurrence that can follow
each other, while an alarm is set : it is active at the first of them, then the alarm is shown as
set, then the occurrence shows as acknowledged, then the alarm as set again; each of these four
parts may be empty. Once it is not active it is never active again. It is active exactly while its
record is not acknowledged and it is within the window or to be heard, it shows as acknowledged
exactly while its record is so and it is less than a day old, and with a wider window it is active
wherever it is active with a narrower one. The occurrence is not in a leap second, as no occurrence
of an alarm is (`Alarm.RingsAt.not_isLeap`). -/
theorem moves_one_way (policy : AckPolicy) (i : Instant) (observations : List Observation)
    (hleap : ¬ i.IsLeap) (hof : ∀ o ∈ observations, o.IsOf i)
    (hchain : observations.IsChain Observation.LeadsTo) :
    (∃ active missed acknowledged ended,
        observations = active ++ (missed ++ (acknowledged ++ ended)) ∧
        (∀ o ∈ active, o.phase policy = .active i) ∧
        (∀ o ∈ missed, o.phase policy = .alarmSet o.next) ∧
        (∀ o ∈ acknowledged, o.phase policy = .acknowledged i) ∧
        ∀ o ∈ ended, o.phase policy = .alarmSet o.next) ∧
      observations.Pairwise (fun o o' => o.phase policy ≠ .active i → o'.phase policy ≠ .active i) ∧
      ∀ o ∈ observations,
        (o.phase policy = .active i ↔ o.record.isAcknowledged = false ∧
          ((o.now.since i).abs ≤ policy.window ∨ o.ringing = true)) ∧
        (o.phase policy = .acknowledged i ↔
          o.record.isAcknowledged = true ∧ o.now.since i < Span.day) ∧
        ∀ wider : AckPolicy, policy.window ≤ wider.window →
          o.phase policy = .active i → o.phase wider = .active i := by
  have hpairs : observations.Pairwise fun o o' => o.IsOf i ∧ o'.IsOf i ∧ o.LeadsTo o' :=
    hchain.pairwise.imp_of_mem fun ho ho' h => ⟨hof _ ho, hof _ ho', h⟩
  have hactive : observations.Pairwise fun o o' => o'.IsActive policy → o.IsActive policy :=
    hpairs.imp fun ⟨ho, ho', h⟩ => .of_leadsTo hleap ho ho' h
  refine ⟨?_, ?_, fun o ho => ⟨?_, ?_, fun wider hwider => ?_⟩⟩
  · obtain ⟨active, rest, rfl, hin, hout⟩ := exists_split hactive
    have hrest := (List.pairwise_append.mp hpairs).2.1
    obtain ⟨missed, rest, rfl, hpending, hack⟩ :=
      exists_split (p := fun o => o.record.isAcknowledged ≠ true) (hrest.imp
        fun ⟨_, _, h⟩ hp' hp => hp' (Observation.isAcknowledged_of_leadsTo h hp))
    have hacked : ∀ o ∈ rest, o.record.isAcknowledged = true := fun o ho =>
      Decidable.of_not_not (hack o ho)
    obtain ⟨acknowledged, ended, rfl, hfresh, hstale⟩ :=
      exists_split (p := Observation.IsFresh) ((List.pairwise_append.mp hrest).2.1.imp_of_mem
        fun ho _ ⟨hof, hof', h⟩ => .of_leadsTo hleap hof hof' h (hacked _ ho))
    simp only [List.mem_append] at hof hout hacked
    refine ⟨active, missed, acknowledged, ended, rfl, fun o ho => ?_, fun o ho => ?_,
      fun o ho => ?_, fun o ho => ?_⟩
    · exact (Observation.phase_eq_active_iff (hof o (.inl ho))).mpr (hin o ho)
    · exact Observation.phase_of_not (hout o (.inl ho)) fun h => hpending o ho h.1
    · have hofo := hof o (.inr (.inr (.inl ho)))
      exact (Observation.phase_eq_acknowledged_iff hofo).mpr (hfresh o ho)
    · exact Observation.phase_of_not (hout o (.inr (.inr ho))) (hstale o ho)
  · refine (hpairs.and hactive).imp fun ⟨⟨ho, ho', _⟩, h⟩ => ?_
    rw [ne_eq, ne_eq, Observation.phase_eq_active_iff ho, Observation.phase_eq_active_iff ho']
    exact mt h
  · rw [Observation.phase_eq_active_iff (hof o ho), ← (hof o ho).record]
    exact Iff.rfl
  · rw [Observation.phase_eq_acknowledged_iff (hof o ho), ← (hof o ho).record]
    exact Iff.rfl
  · rw [Observation.phase_eq_active_iff (hof o ho), Observation.phase_eq_active_iff (hof o ho)]
    exact .widen hwider

/-- Eight o'clock rings, is missed a minute later, acknowledged at five past and over the next day,
as seen with a window of thirty seconds. -/
theorem moves_one_way_at_eight :
    let eight : Instant := ⟨1781078400, 0, by decide, by decide, by decide, by decide⟩
    let missed : Instant := ⟨1781078460, 0, by decide, by decide, by decide, by decide⟩
    let fivePast : Instant := ⟨1781078700, 0, by decide, by decide, by decide, by decide⟩
    let tomorrow : Instant := ⟨1781164800, 0, by decide, by decide, by decide, by decide⟩
    let later : Instant := ⟨1781251200, 0, by decide, by decide, by decide, by decide⟩
    let acknowledged : Wakeup := ⟨eight, some ⟨fivePast, none⟩⟩
    let observations : List Observation := [⟨eight, true, .pending eight, tomorrow⟩,
      ⟨missed, false, .pending eight, tomorrow⟩, ⟨fivePast, false, acknowledged, tomorrow⟩,
      ⟨tomorrow, false, acknowledged, later⟩]
    let policy : AckPolicy := ⟨Span.ofSeconds 30⟩
    ¬ eight.IsLeap ∧ (∀ o ∈ observations, o.IsOf eight) ∧
      observations.IsChain Observation.LeadsTo ∧
      observations.map (Observation.phase policy) =
        [.active eight, .alarmSet tomorrow, .acknowledged eight, .alarmSet later] ∧
      observations.Pairwise fun o o' =>
        o.phase policy ≠ .active eight → o'.phase policy ≠ .active eight := by
  intro eight missed fivePast tomorrow later acknowledged observations policy
  have hleap : ¬ eight.IsLeap := by decide
  have hof : ∀ o ∈ observations, o.IsOf eight := by
    simp only [observations, List.forall_mem_cons]
    exact ⟨⟨rfl, by decide, by decide⟩, ⟨rfl, by decide, by decide⟩, ⟨rfl, by decide, by decide⟩,
      ⟨rfl, by decide, by decide⟩, List.forall_mem_nil _⟩
  have hchain : observations.IsChain Observation.LeadsTo := by
    refine .cons_cons ⟨by decide, by rintro ⟨⟩, .refl⟩ (.cons_cons ⟨by decide, id, ?_⟩
      (.cons_cons ⟨by decide, id, .refl⟩ (.singleton _)))
    exact .single (.acknowledge ⟨fivePast, none⟩ rfl)
  exact ⟨hleap, hof, hchain, by decide,
    (moves_one_way policy eight observations hleap hof hchain).2.1⟩

end AckPolicy

end Reveille
