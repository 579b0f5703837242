import Reveille.Scheduler
import Reveille.Proofs.Occurrence
import Reveille.Proofs.Text.Decimal

/-!
# One decision

What a scheduler can decide at one look (`Scheduler.decide_cases`, `Scheduler.evaluate_cases`),
and what the look leaves behind : tolerance and lookback stay, and only an occurrence that
rings is added to the handled ones.

Occurrences are full seconds, so the key of an occurrence, its milliseconds, belongs to it
alone : an occurrence is handled exactly if it has been put among the handled ones
(`Handled.contains_insert_iff`).
-/

namespace Reveille

open Text

namespace Handled

variable {h : Handled} {i j : Instant}

@[simp] theorem not_contains_empty (i : Instant) : ¬ empty.Contains i := List.not_mem_nil

@[simp] theorem keys_insert (h : Handled) (i : Instant) :
    (h.insert i).keys = i.unixMillis :: h.keys :=
  rfl

/-- Of full seconds, the one put among the handled ones is added and no other. -/
theorem contains_insert_iff (hi : i.nano = 0) (hj : j.nano = 0) :
    (h.insert i).Contains j ↔ j = i ∨ h.Contains j := by
  unfold Contains
  rw [keys_insert, List.mem_cons]
  refine or_congr_left ⟨fun heq => Instant.eq_of_unixMillis_eq hj hi heq, ?_⟩
  rintro rfl
  rfl

/-- The text of a key tells the key. -/
theorem keyText_inj : keyText i = keyText j ↔ i.unixMillis = j.unixMillis := by
  unfold keyText integer
  refine ⟨fun h => ?_, fun h => by rw [h]⟩
  have hchars := congrArg String.toList h
  simp only [String.toList_append, String.toList_ofList] at hchars
  -- No mark follows the number, so one is put behind both.
  have hmarked := congrArg (· ++ ['@']) (List.append_cancel_left hchars)
  exact ((paddedInt_append_inj (c := '@') (by decide)).mp hmarked).1

end Handled

namespace Scheduler

variable {s s' : Scheduler} {zone : Zone} {alarm : Alarm} {i now : Instant} {d : Decision}

/-- The scheduler with an occurrence among the handled ones. -/
def handling (s : Scheduler) (i : Instant) : Scheduler :=
  { s with handled := s.handled.insert i }

@[simp] theorem handled_handling (s : Scheduler) (i : Instant) :
    (s.handling i).handled = s.handled.insert i :=
  rfl

/-- What is waited for depends on the lookback only. -/
theorem nextTrigger_handling (s : Scheduler) (i : Instant) :
    (s.handling i).nextTrigger alarm zone now = s.nextTrigger alarm zone now :=
  rfl

theorem ringsAt_of_nextTrigger (h : s.nextTrigger alarm zone now = .ok i) :
    alarm.RingsAt zone i := by
  unfold nextTrigger at h
  split at h
  · exact Alarm.ringsAt_of_nextAfter h
  · cases h

/-- The decisions on an occurrence. -/
theorem decide_cases (s : Scheduler) (i now : Instant) :
    (¬ (now.since i).abs ≤ s.tolerance ∧ s.decide i now = (.notImminent i, s)) ∨
      ((now.since i).abs ≤ s.tolerance ∧ s.handled.Contains i ∧
        s.decide i now = (.alreadyHandled i, s)) ∨
      ((now.since i).abs ≤ s.tolerance ∧ ¬ s.handled.Contains i ∧
        s.decide i now = (.triggered i, s.handling i)) := by
  unfold decide
  by_cases hfar : s.tolerance < (now.since i).abs
  · exact .inl ⟨Int.not_le.mpr hfar, if_pos hfar⟩
  have hnear : (now.since i).abs ≤ s.tolerance := Int.not_lt.mp hfar
  rw [if_neg hfar]
  by_cases hc : s.handled.Contains i
  · exact .inr (.inl ⟨hnear, hc, if_pos hc⟩)
  · exact .inr (.inr ⟨hnear, hc, if_neg hc⟩)

theorem evaluate_some (s : Scheduler) (zone : Zone) (now : Instant) (alarm : Alarm) :
    s.evaluate zone now (some alarm) =
      (s.nextTrigger alarm zone now).map fun i => s.decide i now :=
  rfl

theorem evaluate_of_nextTrigger (h : s.nextTrigger alarm zone now = .ok i) :
    s.evaluate zone now (some alarm) = .ok (s.decide i now) := by
  rw [evaluate_some, h]
  rfl

/-- The decisions at a look. -/
theorem evaluate_cases {alarm? : Option Alarm}
    (h : s.evaluate zone now alarm? = .ok (d, s')) :
    (alarm? = none ∧ d = .noAlarm ∧ s' = s) ∨
      ∃ alarm i, alarm? = some alarm ∧ s.nextTrigger alarm zone now = .ok i ∧
        ((d = .notImminent i ∧ s' = s) ∨
          (d = .alreadyHandled i ∧ s.handled.Contains i ∧ s' = s) ∨
          (d = .triggered i ∧ ¬ s.handled.Contains i ∧ s' = s.handling i)) := by
  cases alarm? with
  | none =>
    cases h
    exact .inl ⟨rfl, rfl, rfl⟩
  | some alarm =>
    right
    cases hi : s.nextTrigger alarm zone now with
    | error refusal =>
      rw [evaluate_some, hi] at h
      cases h
    | ok i =>
      rw [evaluate_of_nextTrigger hi] at h
      refine ⟨alarm, i, rfl, hi, ?_⟩
      rcases s.decide_cases i now with ⟨-, hd⟩ | ⟨-, hc, hd⟩ | ⟨-, hc, hd⟩ <;> rw [hd] at h <;>
        cases h
      · exact .inl ⟨rfl, rfl⟩
      · exact .inr (.inl ⟨rfl, hc, rfl⟩)
      · exact .inr (.inr ⟨rfl, hc, rfl⟩)

end Scheduler

end Reveille
