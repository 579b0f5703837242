import Reveille.Session.Timeline
import Reveille.Proofs.Session.TickReport

/-!
# Ticks that are told the alarm

In a rehearsal whose alarm store answers whatever it is asked, and has an alarm of the user
(`Rehearsal.Tells`), a tick follows that alarm (`Session.tick_told`), however the requests to
the wake-up store and to the player fare and however long they take. Nothing that a session does
changes the alarms, so the rehearsal stays one of this kind.
-/

namespace Reveille

open Activity

/-! ## Rehearsals -/

namespace Rehearsal

variable {limit : Nat} {user : String} {alarm : Alarm} {s s' : Rehearsal} {r : Request}
  {x : r.Result}

/-- The request, made at some time, has this result. -/
def Meets (limit : Nat) : Meeting Rehearsal := fun s r x s' =>
  ∃ time, (s.make limit time r).2.2.meet (s.make limit time r).1 (s.make limit time r).2.1 r =
    (x, s')

/-- The alarm store answers whatever it is asked, and has this alarm of the user. -/
structure Tells (limit : Nat) (user : String) (alarm : Alarm) (s : Rehearsal) : Prop where
  alarm_set : s.world.alarms.alarmOf? user = some alarm
  answered : ∀ r ∈ s.outlook.responses .alarm, (r.settle limit (.alarmOf user)).2 = .answered

instance (limit : Nat) (user : String) (alarm : Alarm) (s : Rehearsal) :
    Decidable (s.Tells limit user alarm) :=
  decidable_of_iff (s.world.alarms.alarmOf? user = some alarm ∧
    ∀ r ∈ s.outlook.responses .alarm, (r.settle limit (.alarmOf user)).2 = .answered)
    ⟨fun h => ⟨h.1, h.2⟩, fun h => ⟨h.1, h.2⟩⟩

@[simp] theorem world_note (s : Rehearsal) (time : Nat) (notice : Option Notice) :
    (s.note time notice).world = s.world := by
  cases notice <;> rfl

@[simp] theorem outlook_note (s : Rehearsal) (time : Nat) (notice : Option Notice) :
    (s.note time notice).outlook = s.outlook := by
  cases notice <;> rfl

end Rehearsal

theorem World.alarms_answer (world : World) (fate : Fate) (r : Request) :
    (world.answer fate r).2.alarms = world.alarms := by
  cases r with
  | announce a =>
    dsimp only [World.answer]
    split <;> rfl
  | _ => rfl

namespace Outlook

variable {o : Outlook} {limit : Nat} {r : Request} {t u : Target} {response : Response}

/-- Responses are used up, and none is added. -/
theorem mem_of_mem_next (h : response ∈ (o.next u).2.responses t) :
    response ∈ o.responses t := by
  unfold next at h
  split at h
  · exact h
  · next first rest hrs =>
    dsimp only [set] at h
    split at h
    · next htu =>
      rw [htu, hrs]
      exact List.mem_cons_of_mem _ h
    · exact h

theorem mem_of_mem_meet (h : response ∈ (o.meet limit r).2.responses t) :
    response ∈ o.responses t := by
  unfold meet at h
  cases htarget : r.target? with
  | none =>
    rw [htarget] at h
    exact h
  | some u =>
    rw [htarget] at h
    exact mem_of_mem_next h

end Outlook

namespace Rehearsal

variable {limit : Nat} {user : String} {alarm : Alarm} {s s' : Rehearsal} {r : Request}
  {x : r.Result}

theorem Tells.make (h : s.Tells limit user alarm) (time : Nat) (r : Request) :
    (s.make limit time r).2.2.Tells limit user alarm := by
  unfold Rehearsal.make
  refine ⟨?_, fun response hr => ?_⟩
  · rw [world_note]
    exact h.alarm_set
  · rw [outlook_note] at hr
    exact h.answered response (Outlook.mem_of_mem_meet hr)

theorem Tells.meet (h : s.Tells limit user alarm) (time : Nat) (fate : Fate) (r : Request) :
    (s.meet time fate r).2.Tells limit user alarm := by
  unfold Rehearsal.meet
  refine ⟨?_, fun response hr => ?_⟩
  · rw [world_note, World.alarms_answer]
    exact h.alarm_set
  · rw [outlook_note] at hr
    exact h.answered response hr

theorem Tells.of_meets (h : s.Tells limit user alarm) (hm : Meets limit s r x s') :
    s'.Tells limit user alarm := by
  obtain ⟨time, hm⟩ := hm
  have h' := (h.make time r).meet (s.make limit time r).1 (s.make limit time r).2.1 r
  rw [hm] at h'
  exact h'

/-- Who asks for the alarm is told it. -/
theorem Tells.reply (h : s.Tells limit user alarm) {reply : Reply (Option Alarm)}
    (hm : Meets limit s (.alarmOf user) reply s') : reply = some (.ok (some alarm)) := by
  obtain ⟨time, hm⟩ := hm
  have hfate : (s.make limit time (.alarmOf user)).2.1 = .answered := by
    unfold Rehearsal.make Outlook.meet Outlook.next Request.target?
    dsimp only
    cases hrs : s.outlook.responses .alarm with
    | nil => rfl
    | cons response rest => exact h.answered response (hrs ▸ List.mem_cons_self)
  have hanswer : ∀ (o : Rehearsal) (due : Nat),
      (o.meet due .answered (.alarmOf user)).1 = some (.ok (o.world.alarms.alarmOf? user)) :=
    fun _ _ => rfl
  have hreply := congrArg Prod.fst hm
  rw [hfate, hanswer, (h.make time (.alarmOf user)).alarm_set] at hreply
  exact hreply.symm

end Rehearsal

/-- What is ensured of a rehearsal holds once the activity has ended. -/
theorem Activity.Ensures.advance {α : Type} {limit horizon time ends : Nat} {a : Activity α}
    {Q : α → Rehearsal → Prop} {s s' : Rehearsal} {x : α}
    (h : a.Ensures (Rehearsal.Meets limit) Q s)
    (hfin : a.advance limit horizon time s = (.finished ends x, s')) : Q x s' := by
  induction a generalizing time s with
  | done a =>
    cases hfin
    exact h
  | ask r next ih =>
    unfold Activity.advance at hfin
    dsimp only at hfin
    split at hfin
    · exact ih _ (h _ _ ⟨time, rfl⟩) hfin
    · cases hfin

/-! ## Ticks -/

/-- A tick that is told the alarm follows it. -/
theorem Session.tick_told {limit : Nat} {alarm : Alarm} {o : Rehearsal} (s : Session)
    (now : Instant) (ho : o.Tells limit s.user alarm) :
    (s.tick now).Ensures (Rehearsal.Meets limit)
      (fun res o' => o'.Tells limit s.user alarm ∧ s.Followed now (some alarm) res) o := by
  have hkeeps : ∀ o₁ r x o₂, Rehearsal.Tells limit s.user alarm o₁ →
      Rehearsal.Meets limit o₁ r x o₂ → Rehearsal.Tells limit s.user alarm o₂ :=
    fun _ _ _ _ h hm => h.of_meets hm
  refine (Ensures.of_keeps hkeeps ho (s.tick_ensures now)).mono ?_
  rintro res o' ⟨ho', o₁, reply, o₂, ⟨ho₁, hm⟩, hticked⟩
  refine ⟨ho', ?_⟩
  obtain rfl := ho₁.reply hm
  cases hticked with
  | unread fault ws h => cases h
  | read alarm' res h hres =>
    cases h
    exact hres

end Reveille
