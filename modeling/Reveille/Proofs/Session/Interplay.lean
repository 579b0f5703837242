import Reveille.Proofs.Session.Alert
import Reveille.Proofs.Session.Course

/-!
# Requests that take turns

The user may acknowledge while a tick is under way, and several calls may be made at a time.
`Interplay` is a session together with all that is under way; `Interplay.step` lets one of the
parties make its next request, so a list of moves is an order in which the requests of a tick and
of the calls take turns. The player can always be reached here, the stores need not be.

An interplay keeps account of what fires (`Firing`) and of the occurrence for which the alarm is to
be heard. Ticks obey rules (`Firing.Allows`) however their requests are met and whoever acts in
between (`Session.tick_abides`) : an occurrence fires once, and the alarm is started only for one
that has fired. Calls of the user fire nothing and start no alarm, and a call that acknowledges has
gone back to the silent loop last (`Call.acknowledge_isUsers`).
-/

namespace Reveille

/-! ## Rules for requests -/

namespace Activity

variable {σ α β : Type} {allowed : σ → Request → Prop} {after : σ → Request → σ}
  {P Q : α → σ → Prop} {s : σ}

/-- Each request is allowed in the state in which it is made, and the end is in `Q`, whatever comes
back; `after` tells what the state is after a request. -/
def Abides (allowed : σ → Request → Prop) (after : σ → Request → σ) (Q : α → σ → Prop) :
    Activity α → σ → Prop
  | .done a, s => Q a s
  | .ask r next, s => allowed s r ∧ ∀ x, (next x).Abides allowed after Q (after s r)

theorem abides_bind {a : Activity α} {f : α → Activity β} {Q : β → σ → Prop} :
    (a >>= f).Abides allowed after Q s ↔
      a.Abides allowed after (fun x s => (f x).Abides allowed after Q s) s := by
  induction a generalizing s with
  | done a => exact Iff.rfl
  | ask r next ih => exact and_congr_right fun _ => forall_congr' fun x => ih x

theorem abides_request_bind {r : Request} {f : r.Result → Activity α} :
    (request r >>= f).Abides allowed after Q s ↔
      allowed s r ∧ ∀ x, (f x).Abides allowed after Q (after s r) :=
  Iff.rfl

theorem Abides.mono {a : Activity α} (h : a.Abides allowed after P s)
    (hPQ : ∀ x s', P x s' → Q x s') : a.Abides allowed after Q s := by
  induction a generalizing s with
  | done a => exact hPQ a s h
  | ask r next ih => exact ⟨h.1, fun x => ih x (h.2 x)⟩

/-- Requests that are always allowed, and that change nothing, leave the state as it is. -/
theorem Asks.abides {p : Request → Prop} {a : Activity α} (ha : a.Asks p)
    (hp : ∀ r, p r → allowed s r ∧ after s r = s)
    (hQ : a.Ensures (fun _ _ _ _ => True) (fun x (_ : Unit) => Q x s) ()) :
    a.Abides allowed after Q s := by
  induction a with
  | done a => exact hQ
  | ask r next ih =>
    obtain ⟨hr, hsame⟩ := hp r ha.1
    refine ⟨hr, fun x => ?_⟩
    rw [hsame]
    exact ih x (ha.2 x) (hQ x () trivial)

end Activity

open Activity

/-! ## Firings -/

/-- The occurrences that have fired, in order, and the one for which the alarm has still to be
started. -/
structure Firing where
  fired : List Instant
  outstanding : Option Instant
  deriving DecidableEq

namespace Firing

/-- The account after a request. -/
def note (f : Firing) : Request → Firing
  | .fire i => ⟨f.fired ++ [i], some i⟩
  | .sound .playAlarm => { f with outstanding := none }
  | _ => f

/-- An occurrence fires once, and the alarm is started for one that has fired. -/
def Allows (f : Firing) : Request → Prop
  | .fire i => i ∉ f.fired
  | .sound .playAlarm => f.outstanding.isSome
  | _ => True

end Firing

/-- The request neither fires an occurrence nor starts the alarm. -/
def Request.IsTame : Request → Prop
  | .fire _ => False
  | .sound .playAlarm => False
  | _ => True

theorem Firing.of_isTame {f : Firing} {r : Request} (h : r.IsTame) : f.Allows r ∧ f.note r = f := by
  cases r with
  | sound command => cases command <;> first | exact h.elim | exact ⟨trivial, rfl⟩
  | fire i => exact h.elim
  | _ => exact ⟨trivial, rfl⟩

/-! ## Ticks abide by the rules -/

namespace Session

variable {s : Session} {f : Firing}

/-- Between two ticks every alarm has been started, and what has fired is handled. -/
structure Settled (s : Session) (f : Firing) : Prop where
  started : f.outstanding = none
  full : ∀ i ∈ f.fired, i.nano = 0
  handled : ∀ i, i.nano = 0 → (s.scheduler.handled.Contains i ↔ i ∈ f.fired)

theorem Settled.keeping (h : s.Settled f) (ws : List Wakeup) : (s.keeping ws).Settled f :=
  ⟨h.started, h.full, h.handled⟩

variable {now : Instant} {alarm : Option Alarm} {d : Decision} {scheduler : Scheduler}

/-- An occurrence that has not been handled may ring, and is settled when it has rung. -/
theorem ring_abides (h : s.Settled f) {i : Instant} (hi : i.nano = 0)
    (hnew : ¬ s.scheduler.handled.Contains i) :
    ({ s with scheduler := s.scheduler.handling i }.ring i).Abides Firing.Allows Firing.note
      Settled f := by
  have hafter : ({ s with scheduler := s.scheduler.handling i } : Session).Settled
      ⟨f.fired ++ [i], none⟩ := by
    refine ⟨rfl, fun j hj => ?_, fun j hj => ?_⟩
    · rcases List.mem_append.mp hj with hj | hj
      · exact h.full j hj
      · exact List.mem_singleton.mp hj ▸ hi
    · rw [Scheduler.handled_handling, Handled.contains_insert_iff hi hj, h.handled j hj,
        List.mem_append, List.mem_singleton]
      exact or_comm
  unfold ring
  rw [abides_request_bind]
  refine ⟨fun hmem => hnew ((h.handled i hi).mpr hmem), fun _ => ?_⟩
  rw [abides_bind]
  refine (save_asks _ _ fun _ _ => trivial).abides (fun r => Firing.of_isTame) ?_
  refine (save_ensures _ _).mono ?_
  rintro s' - ⟨ws, rfl⟩
  rw [abides_request_bind]
  refine ⟨trivial, fun _ => ?_⟩
  rw [abides_request_bind]
  refine ⟨rfl, fun _ => ?_⟩
  rw [abides_request_bind]
  exact ⟨trivial, fun _ => hafter.keeping ws⟩

theorem act_abides (h : s.Settled f)
    (he : s.scheduler.evaluate s.zone now alarm = .ok (d, scheduler)) :
    ({ s with scheduler }.act d).Abides Firing.Allows Firing.note Settled f := by
  rcases Scheduler.evaluate_cases he with ⟨-, rfl, rfl⟩ | ⟨a, i, -, hi, hcase⟩
  · exact h
  rcases hcase with ⟨rfl, rfl⟩ | ⟨rfl, -, rfl⟩ | ⟨rfl, hnew, rfl⟩
  · exact h
  · exact h
  · exact ring_abides h (Scheduler.ringsAt_of_nextTrigger hi).nano_eq_zero hnew

theorem follow_abides (h : s.Settled f) :
    (s.follow alarm now).Abides Firing.Allows Firing.note (fun res f => res.2.Settled f) f := by
  unfold follow
  split
  · exact h
  · next d scheduler he =>
    rw [abides_bind]
    refine (act_abides h he).mono fun s' f' hs' => ?_
    rw [abides_bind]
    refine (s'.refresh_asks alarm now trivial trivial fun _ => trivial).abides
      (fun r => Firing.of_isTame) (Ensures.of_forall fun res _ => ?_)
    cases res <;> exact hs'

/-- A tick abides by the rules, and the session is settled after it. -/
theorem tick_abides (h : s.Settled f) (now : Instant) :
    (s.tick now).Abides Firing.Allows Firing.note (fun res f => res.2.Settled f) f := by
  unfold tick
  rw [abides_bind]
  refine (saveAll_asks _ s.unsaved fun _ _ => trivial).abides (fun r => Firing.of_isTame) ?_
  refine s.retry_ensures.mono ?_
  rintro s' - ⟨ws, rfl⟩
  rw [abides_request_bind]
  refine ⟨trivial, fun reply => ?_⟩
  split
  · exact h.keeping ws
  · exact follow_abides (h.keeping ws)

end Session

/-! ## Calls of the user -/

/-- A call of the user, as far as it has come, up to the alarm instant and the record of a wake-up
that it has acknowledged. -/
abbrev Call := Activity (Option (Instant × Wakeup))

namespace Call

def acknowledge (a : Acknowledger) (alarmInstant : Instant) (ack : Acknowledgment) : Call := do
  let reply ← a.acknowledge alarmInstant ack
  pure (reply.toOption.map (alarmInstant, ·))

def silence : Call := do
  Acknowledger.silence
  pure none

/-- The request that has been made last, if there has been one. -/
def lastRequest : Meeting (Option Request) := fun _ r _ last => last = some r

/-- The call makes tame requests only, and when it has acknowledged a wake-up the silent loop is
what it has asked for last. -/
structure IsUsers (c : Call) (last : Option Request) : Prop where
  tame : c.Asks Request.IsTame
  silent : c.Ensures lastRequest
    (fun res last => res.isSome → last = some (.sound .playSilent)) last

theorem acknowledge_isUsers (a : Acknowledger) (alarmInstant : Instant) (ack : Acknowledgment) :
    (acknowledge a alarmInstant ack).IsUsers none := by
  refine ⟨(a.acknowledge_asks alarmInstant ack trivial trivial (fun _ => trivial) trivial
    trivial).bind fun _ => asks_pure, ?_⟩
  unfold acknowledge
  rw [ensures_bind]
  -- Whatever comes back, an answer other than an error is given behind the silent loop.
  suffices h : (a.acknowledge alarmInstant ack).Ensures lastRequest
      (fun reply last => reply.toOption.isSome → last = some (.sound .playSilent)) none from
    h.mono fun reply last hlast => by simpa [ensures_pure] using hlast
  have hfails : ∀ (fault : SessionFault) (last : Option Request),
      (Except.error fault : Except SessionFault Wakeup).toOption.isSome →
        last = some (.sound .playSilent) := fun _ _ h => by cases h
  refine a.ensures_acknowledge (hfails _ none) fun _ last _ => ⟨(hfails · last), fun _ last _ => ?_⟩
  refine ⟨(hfails · last), fun _ _ _ _ => a.ensures_conclude fun _ last _ => ?_⟩
  refine ⟨(hfails · last), fun _ _ => ?_⟩
  unfold Acknowledger.silence
  rw [ensures_request_bind]
  intro _ last _
  rw [ensures_request_bind]
  exact fun _ last hlast _ => hlast

theorem silence_isUsers : silence.IsUsers none :=
  ⟨(Acknowledger.silence_asks trivial trivial).bind fun _ => asks_pure,
    fun _ _ _ _ _ _ h => by cases h⟩

end Call

/-! ## Interplays -/

/-- A session between two ticks, or in one as far as it has come. -/
inductive Stance where
  | waiting (s : Session)
  | ticking (rest : Activity (Except SessionFault TickReport × Session))

/-- A session and the calls of its user, with their surroundings and an account of what rings. -/
structure Interplay where
  acknowledger : Acknowledger
  stance : Stance
  calls : List Call
  world : World
  firing : Firing
  /-- The occurrence on whose account the alarm has been started and not stopped since. -/
  sounding : Option Instant

/-- The fate of a request where the player can always be reached. -/
def Fate.audible (fate : Fate) : Request → Fate
  | .sound _ => .answered
  | _ => fate

/-- What happens next in an interplay. -/
inductive Move where
  /-- A tick begins, the clock showing `now`, unless one is under way. -/
  | look (now : Instant)
  /-- The tick makes its next request, or ends. -/
  | tick (fate : Fate)
  | acknowledge (alarmInstant : Instant) (ack : Acknowledgment)
  | silence
  /-- A call makes its next request. -/
  | call (n : Nat) (fate : Fate)
  /-- The alarms that are set change. -/
  | setAlarms (alarms : AlarmStore)
  /-- The listener takes the announcements that wait, and stays or leaves. -/
  | listen (stays : Bool)
  deriving DecidableEq

namespace Interplay

def start (user : String) (zone : Zone) (settings : Settings) (world : World) : Interplay where
  acknowledger := .new user settings
  stance := .waiting (.new user zone settings)
  calls := []
  world := (Scene.start user zone settings world).world
  firing := ⟨[], none⟩
  sounding := none

/-- On whose account the alarm is to be heard after a request. -/
def heard (s : Interplay) : Request → Option Instant
  | .sound .playAlarm => s.firing.outstanding
  | .sound .playSilent => none
  | .sound .stop => none
  | _ => s.sounding

/-- A request meets its fate. -/
def meet (s : Interplay) (fate : Fate) (r : Request) : r.Result × Interplay :=
  let (result, world) := s.world.answer (fate.audible r) r
  (result, { s with world, firing := s.firing.note r, sounding := s.heard r })

def step (s : Interplay) : Move → Interplay
  | .look now =>
    match s.stance with
    | .waiting session => { s with stance := .ticking (session.tick now) }
    | .ticking _ => s
  | .tick fate =>
    match s.stance with
    | .waiting _ => s
    | .ticking (.done (_, session)) => { s with stance := .waiting session }
    | .ticking (.ask r next) =>
      let (x, s) := s.meet fate r
      { s with stance := .ticking (next x) }
  | .acknowledge alarmInstant ack =>
    { s with calls := s.calls ++ [.acknowledge s.acknowledger alarmInstant ack] }
  | .silence => { s with calls := s.calls ++ [.silence] }
  | .call n fate =>
    match s.calls[n]? with
    | some (.ask r next) =>
      let (x, s) := s.meet fate r
      { s with calls := s.calls.set n (next x) }
    | _ => s
  | .setAlarms alarms => { s with world := { s.world with alarms } }
  | .listen stays => { s with world := { s.world with announced := [], listening := stays } }

/-- The interplay after moves, one after the other. -/
def run (s : Interplay) (moves : List Move) : Interplay := moves.foldl step s

/-- The wake-up that a call has acknowledged, and its record as the call has returned it. -/
def acknowledged? (s : Interplay) (n : Nat) : Option (Instant × Wakeup) :=
  match s.calls[n]? with
  | some (.done res) => res
  | _ => none

end Interplay

end Reveille
