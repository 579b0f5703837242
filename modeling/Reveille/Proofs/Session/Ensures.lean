import Reveille.Session.Acknowledger
import Reveille.Session.World

/-!
# What an activity ensures

`Activity.Ensures meets Q a s` says that the activity `a`, begun in the state `s`, ends in `Q`
however its requests are met; `meets` tells which results a request can have in a state, and
what the state is after it. The rules follow the activity : one for its end, one for a request
(`ensures_request_bind`), one for two activities in a row (`ensures_bind`). A call that acknowledges
an occurrence is taken apart once (`Acknowledger.ensures_acknowledge`).

`Activity.runWith` performs an activity in a world where every request meets a given fate and
nobody else acts. What is ensured of all fates in a world (`Watch.Meets`) holds of each such
performance (`Ensures.runWith`).
-/

namespace Reveille

/-- Which results a request can have in a state, and what the state is after it. -/
abbrev Meeting (σ : Type) := σ → (r : Request) → r.Result → σ → Prop

namespace Activity

variable {σ α β : Type} {meets : Meeting σ} {P Q : α → σ → Prop} {s : σ}

/-- However its requests are met, the activity ends in `Q`. -/
def Ensures (meets : Meeting σ) (Q : α → σ → Prop) : Activity α → σ → Prop
  | .done a, s => Q a s
  | .ask r next, s => ∀ x s', meets s r x s' → (next x).Ensures meets Q s'

theorem ensures_pure {a : α} : (pure a : Activity α).Ensures meets Q s ↔ Q a s := Iff.rfl

theorem ensures_bind {a : Activity α} {f : α → Activity β} {Q : β → σ → Prop} :
    (a >>= f).Ensures meets Q s ↔ a.Ensures meets (fun x s => (f x).Ensures meets Q s) s := by
  induction a generalizing s with
  | done a => exact Iff.rfl
  | ask r next ih => exact forall₃_congr fun x s' _ => ih x

/-- A request, then an activity. -/
theorem ensures_request_bind {r : Request} {f : r.Result → Activity α} :
    (request r >>= f).Ensures meets Q s ↔ ∀ x s', meets s r x s' → (f x).Ensures meets Q s' :=
  Iff.rfl

theorem Ensures.mono {a : Activity α} (h : a.Ensures meets P s) (hPQ : ∀ x s', P x s' → Q x s') :
    a.Ensures meets Q s := by
  induction a generalizing s with
  | done a => exact hPQ a s h
  | ask r next ih => exact fun x s' hx => ih x (h x s' hx)

theorem Ensures.of_forall {a : Activity α} (h : ∀ x s', Q x s') : a.Ensures meets Q s := by
  induction a generalizing s with
  | done a => exact h a s
  | ask r next ih => exact fun x s' _ => ih x

theorem Ensures.and {a : Activity α} (h : a.Ensures meets P s) (h' : a.Ensures meets Q s) :
    a.Ensures meets (fun x s => P x s ∧ Q x s) s := by
  induction a generalizing s with
  | done a => exact ⟨h, h'⟩
  | ask r next ih => exact fun x s' hx => ih x (h x s' hx) (h' x s' hx)

/-- What every request keeps may be assumed whenever a request is met. -/
theorem Ensures.of_keeps {I : σ → Prop} {a : Activity α}
    (keeps : ∀ s r x s', I s → meets s r x s' → I s') (hs : I s)
    (h : a.Ensures (fun s r x s' => I s ∧ meets s r x s') Q s) :
    a.Ensures meets (fun x s' => I s' ∧ Q x s') s := by
  induction a generalizing s with
  | done a => exact ⟨hs, h⟩
  | ask r next ih =>
    intro x s' hx
    exact ih x (keeps s r x s' hs hx) (h x s' ⟨hs, hx⟩)

/-! ### Which requests are made -/

/-- Every request that the activity can make is one of `p`. -/
def Asks (p : Request → Prop) : Activity α → Prop
  | .done _ => True
  | .ask r next => p r ∧ ∀ x, (next x).Asks p

variable {p : Request → Prop}

theorem asks_pure {a : α} : (pure a : Activity α).Asks p := trivial

theorem asks_request {r : Request} (h : p r) : (request r).Asks p := ⟨h, fun _ => trivial⟩

theorem Asks.bind {a : Activity α} {f : α → Activity β} (ha : a.Asks p)
    (hf : ∀ x, (f x).Asks p) : (a >>= f).Asks p := by
  induction a with
  | done a => exact hf a
  | ask r next ih => exact ⟨ha.1, fun x => ih x (ha.2 x)⟩

/-- What all requests of an activity keep, the activity keeps. -/
theorem Asks.ensures {I : σ → Prop} {a : Activity α} (ha : a.Asks p)
    (h : ∀ s r x s', p r → I s → meets s r x s' → I s') (hs : I s) :
    a.Ensures meets (fun _ s => I s) s := by
  induction a generalizing s with
  | done a => exact hs
  | ask r next ih => exact fun x s' hx => ih x (ha.2 x) (h s r x s' ha.1 hs hx)

end Activity

/-! ## Calls -/

namespace Acknowledger

open Activity

variable {σ : Type} {meets : Meeting σ} {Q : Except SessionFault Wakeup → σ → Prop} {s : σ}

/-- Saving a wake-up fails, or the call goes back to the silent loop and returns it. -/
theorem ensures_conclude (a : Acknowledger) {w : Wakeup}
    (h : ∀ x s₁, meets s (.upsert a.user w) x s₁ →
      (∀ fault, Q (.error fault) s₁) ∧ ∀ stored, inTime a.limit x = .ok stored →
        silence.Ensures meets (fun _ s₂ => Q (.ok stored) s₂) s₁) :
    (a.conclude w).Ensures meets Q s := by
  unfold conclude
  rw [ensures_request_bind]
  intro x s₁ h₁
  obtain ⟨hfails, hsaved⟩ := h x s₁ h₁
  split
  · exact hfails _
  · next stored hstored =>
    rw [ensures_bind]
    exact hsaved stored hstored

/-- A call fails, at once or after either of its questions, or it saves the acknowledged wake-up,
and then the replies to the questions have told it that the acknowledgment is awaited. -/
theorem ensures_acknowledge (a : Acknowledger) {T : Instant} {ack : Acknowledgment}
    (hearly : Q (.error (.refused (.notTriggered T))) s)
    (h : ∀ x s₁, meets s (.latest a.user) x s₁ →
      (∀ fault, Q (.error fault) s₁) ∧ ∀ fired s₂, meets s₁ .lastFired fired s₂ →
        (∀ fault, Q (.error fault) s₂) ∧ ∀ latest, inTime a.limit x = .ok latest →
          T ≤ ack.instant →
          latest = some (.pending T) ∨ (∀ v ∈ latest, v.alarmInstant < T) ∧ fired = some T →
            (a.conclude ⟨T, some ack⟩).Ensures meets Q s₂) :
    (a.acknowledge T ack).Ensures meets Q s := by
  unfold acknowledge
  split
  · exact hearly
  next hdated =>
  unfold Acknowledger.latest
  rw [ensures_bind, ensures_request_bind]
  intro x s₁ h₁
  obtain ⟨hfails, h⟩ := h x s₁ h₁
  rw [ensures_pure]
  split
  · exact hfails _
  next latest hlatest =>
  rw [ensures_request_bind]
  intro fired s₂ h₂
  obtain ⟨hfails, h⟩ := h fired s₂ h₂
  split
  · exact hfails _
  · next w hw =>
    obtain ⟨hfound, rfl⟩ := target_acknowledge_eq_ok_iff.mp hw
    exact h latest hlatest hdated hfound

end Acknowledger

/-! ## Activities in a world -/

/-- The request changes nothing, whatever comes back. -/
def Request.IsQuestion : Request → Prop
  | .alarmOf _ => True
  | .latest _ => True
  | .isRinging => True
  | .lastFired => True
  | .shown => True
  | _ => False

/-- A world, and what has been noticed in it, in order. -/
structure Watch where
  world : World
  notices : List Notice

namespace Watch

/-- A request meets its fate. -/
def meet (s : Watch) (fate : Fate) (r : Request) : r.Result × Watch :=
  let (result, world) := s.world.answer fate r
  (result, ⟨world, s.notices ++ (r.notice? s.world result).toList⟩)

/-- The request has this result for some fate. -/
def Meets : Meeting Watch := fun s r x s' => ∃ fate, s.meet fate r = (x, s')

/-- The request is answered with this result. -/
def Answers : Meeting Watch := fun s r x s' => s.meet .answered r = (x, s')

section Requests

variable {s s' : Watch} {r : Request} {x : r.Result}

theorem Answers.meets (h : s.Answers r x s') : s.Meets r x s' := ⟨.answered, h⟩

theorem Answers.world (h : s.Answers r x s') : s.world.answer .answered r = (x, s'.world) := by
  cases h
  rfl

/-- A question changes nothing. -/
theorem eq_of_question (h : s.Meets r x s') (hr : r.IsQuestion) : s = s' := by
  obtain ⟨fate, h⟩ := h
  cases r <;> first | exact hr.elim | (cases h; simp [Request.notice?])

end Requests

end Watch

namespace Activity

/-- The activity with the fates of its requests in order, all answered when there are no more. -/
def runWith {α : Type} : Activity α → List Fate → Watch → α × Watch
  | .done a, _, s => (a, s)
  | .ask r next, fates, s =>
    let (x, s) := s.meet (fates.headD .answered) r
    (next x).runWith fates.tail s

/-- A request meets the next fate. -/
theorem runWith_request_bind {α : Type} {r : Request} {f : r.Result → Activity α}
    {fates : List Fate} {s : Watch} : (request r >>= f).runWith fates s =
      (f (s.meet (fates.headD .answered) r).1).runWith fates.tail
        (s.meet (fates.headD .answered) r).2 :=
  rfl

theorem Ensures.runWith {α : Type} {a : Activity α} {Q : α → Watch → Prop} {s : Watch}
    (h : a.Ensures Watch.Meets Q s) (fates : List Fate) :
    Q (a.runWith fates s).1 (a.runWith fates s).2 := by
  induction a generalizing s fates with
  | done a => exact h
  | ask r next ih => exact ih _ (h _ _ ⟨fates.headD .answered, rfl⟩) fates.tail

/-- What is ensured of requests that are all answered holds when none meets another fate. -/
theorem Ensures.runAnswered {α : Type} {a : Activity α} {Q : α → Watch → Prop} {s : Watch}
    (h : a.Ensures Watch.Answers Q s) : Q (a.runWith [] s).1 (a.runWith [] s).2 := by
  induction a generalizing s with
  | done a => exact h
  | ask r next ih => exact ih _ (h _ _ rfl)

/-- What the activity has changed when it is broken off after so many requests. -/
def runFor {α : Type} : Nat → Activity α → List Fate → Watch → Watch
  | n + 1, .ask r next, fates, s =>
    let (x, s) := s.meet (fates.headD .answered) r
    runFor n (next x) fates.tail s
  | _, _, _, s => s

/-- What has been noticed stays noticed. -/
theorem notices_prefix_runWith {α : Type} (a : Activity α) (fates : List Fate) (s : Watch) :
    s.notices <+: (a.runWith fates s).2.notices := by
  induction a generalizing s fates with
  | done a => exact List.prefix_rfl
  | ask r next ih =>
    have hmeet : s.notices <+: (s.meet (fates.headD .answered) r).2.notices :=
      List.prefix_append _ _
    exact hmeet.trans (ih _ fates.tail _)

/-- An activity that is broken off has been noticed as far as it has come. -/
theorem notices_runFor_prefix {α : Type} (n : Nat) (a : Activity α) (fates : List Fate)
    (s : Watch) : (runFor n a fates s).notices <+: (a.runWith fates s).2.notices := by
  induction a generalizing n s fates with
  | done a => cases n <;> exact List.prefix_rfl
  | ask r next ih =>
    cases n with
    | zero => exact notices_prefix_runWith _ fates s
    | succ n => exact ih _ n fates.tail _

end Activity

end Reveille
