import Reveille.Session.Activity

/-!
# Acknowledging

An `Acknowledger` answers for a user who has been woken. It acknowledges the latest wake-up
of the user, at a time not before its alarm instant, and goes back to the silent loop; a
wake-up whose record is missing is made anew if it is the one that fired last. To silence
the alarm changes no record.

What a call finds is told by the latest wake-up and by what fired last
(`Acknowledger.target_eq_iff`), and so is whether it acknowledges it
(`Acknowledger.target_acknowledge_eq_ok_iff`).
-/

namespace Reveille

open Activity

structure Acknowledger where
  user : String
  /-- Milliseconds after which a call of a store is given up. -/
  limit : Nat
  deriving DecidableEq

namespace Acknowledger

/-- The user's wake-up with the latest alarm instant. -/
def latest (a : Acknowledger) : Activity (Except StoreFault (Option Wakeup)) := do
  let reply ← request (.latest a.user)
  pure (inTime a.limit reply)

/-- From the alarm back to the silent loop. -/
def silence : Activity Unit := do
  let _ ← request (.sound .stop)
  let _ ← request (.sound .playSilent)

/-- The wake-up that an acknowledgment is for, out of the latest one and the occurrence that
fired last. -/
def target (alarmInstant : Instant) (latest : Option Wakeup) (fired : Option Instant) :
    Except Refusal Wakeup :=
  let missing :=
    if fired = some alarmInstant then .ok (.pending alarmInstant)
    else .error (.notTriggered alarmInstant)
  match latest with
  | some w =>
    if alarmInstant < w.alarmInstant then .error (.superseded alarmInstant w.alarmInstant)
    else if w.alarmInstant = alarmInstant then .ok w
    else missing
  | none => missing

section Target

variable {T : Instant} {latest : Option Wakeup} {fired : Option Instant}

/-- A later wake-up is in the way, the one of the occurrence is taken, and where the latest is an
earlier one, or there is none, it depends on what fired last. -/
theorem target_eq_iff {res : Except Refusal Wakeup} : target T latest fired = res ↔
    (∃ w ∈ latest, T < w.alarmInstant ∧ res = .error (.superseded T w.alarmInstant)) ∨
      (∃ w ∈ latest, w.alarmInstant = T ∧ res = .ok w) ∨
        (∀ w ∈ latest, w.alarmInstant < T) ∧
          res = if fired = some T then .ok (.pending T) else .error (.notTriggered T) := by
  rw [eq_comm]
  unfold target
  cases latest with
  | none => simp
  | some w =>
    by_cases hlater : T < w.alarmInstant
    · have hne : w.alarmInstant ≠ T := fun heq => Instant.lt_irrefl T (heq ▸ hlater)
      have hnot : ¬ w.alarmInstant < T := fun hlt =>
        Instant.lt_irrefl T (Instant.lt_trans hlater hlt)
      simp [hlater, hne, hnot]
    by_cases heq : w.alarmInstant = T
    · simp [heq, Instant.lt_irrefl]
    · have hearlier : w.alarmInstant < T :=
        Decidable.byContradiction fun hnot => heq (Instant.eq_of_not_lt hnot hlater)
      simp [hlater, heq, hearlier]

theorem target_eq_ok_iff {v : Wakeup} : target T latest fired = .ok v ↔
    (latest = some v ∧ v.alarmInstant = T) ∨
      (∀ w ∈ latest, w.alarmInstant < T) ∧ fired = some T ∧ v = .pending T := by
  rw [target_eq_iff]
  by_cases hfired : fired = some T <;> simp [hfired]

/-- What a call finds is acknowledged if it is pending. -/
theorem target_acknowledge_eq_ok_iff {ack : Acknowledgment} {w : Wakeup} :
    (target T latest fired >>= (·.acknowledge ack)) = .ok w ↔
      (latest = some (.pending T) ∨ (∀ v ∈ latest, v.alarmInstant < T) ∧ fired = some T) ∧
        w = ⟨T, some ack⟩ := by
  rw [Json.bind_eq_ok]
  simp only [target_eq_ok_iff, Wakeup.acknowledge_eq_ok_iff]
  constructor
  · rintro ⟨v, ⟨hlatest, rfl⟩ | ⟨hearlier, hfired, rfl⟩, hpending, rfl⟩
    · rw [hpending] at hlatest
      exact ⟨.inl hlatest, rfl⟩
    · exact ⟨.inr ⟨hearlier, hfired⟩, rfl⟩
  · rintro ⟨hlatest | ⟨hearlier, hfired⟩, rfl⟩
    · exact ⟨.pending T, .inl ⟨hlatest, rfl⟩, rfl, rfl⟩
    · exact ⟨.pending T, .inr ⟨hearlier, hfired, rfl⟩, rfl, rfl⟩

end Target

/-- Saves an acknowledged wake-up and goes back to the silent loop. -/
def conclude (a : Acknowledger) (w : Wakeup) : Activity (Except SessionFault Wakeup) := do
  match inTime a.limit (← request (.upsert a.user w)) with
  | .error fault => pure (.error (.store fault))
  | .ok stored =>
    silence
    pure (.ok stored)

/-- Acknowledges the wake-up of an alarm instant. -/
def acknowledge (a : Acknowledger) (alarmInstant : Instant) (ack : Acknowledgment) :
    Activity (Except SessionFault Wakeup) := do
  if ack.instant < alarmInstant then pure (.error (.refused (.notTriggered alarmInstant)))
  else
    match ← a.latest with
    | .error fault => pure (.error (.store fault))
    | .ok latest =>
      let fired ← request .lastFired
      match target alarmInstant latest fired >>= (·.acknowledge ack) with
      | .error refusal => pure (.error (.refused refusal))
      | .ok w => a.conclude w

end Acknowledger

/-- The acknowledger of a session. -/
def Acknowledger.new (user : String) (settings : Settings) : Acknowledger :=
  ⟨user, settings.writeTimeout⟩

end Reveille
