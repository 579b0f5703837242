import Reveille.Proofs.Session.Kept

/-!
# Surroundings that are shared

An activity does not have its surroundings to itself : between two of its requests others make
requests of their own, the alarms that are set change, and the listener comes and goes. Each of
these is an `Incident`. A `Turn` tells what happens before a request and which fate the request
meets, and `Activity.runAmid` runs an activity along turns. What it has asked and been told is kept
in order, as a list of `Exchange`s.

What is ensured however the requests are met in shared surroundings (`Shared.Meets`) holds of every
such run (`Activity.Ensures.runAmid`).
-/

namespace Reveille

/-! ## Incidents -/

/-- Something that happens in the surroundings of an activity without its doing. -/
inductive Incident where
  /-- A request of others meets its fate. -/
  | request (r : Request) (fate : Fate)
  /-- The alarms that are set change. -/
  | setAlarms (alarms : AlarmStore)
  /-- The listener takes the announcements that wait, and stays or leaves. -/
  | listen (stays : Bool)
  deriving DecidableEq

namespace World

def after (world : World) : Incident → World
  | .request r fate => (world.answer fate r).2
  | .setAlarms alarms => { world with alarms }
  | .listen stays => { world with announced := [], listening := stays }

/-- The surroundings after incidents, one after the other. -/
def afterAll (world : World) (incidents : List Incident) : World := incidents.foldl after world

/-- What each incident keeps, all of them keep. -/
theorem afterAll_keeps {p : World → Prop} {allowed : Incident → Prop}
    (h : ∀ world i, allowed i → p world → p (world.after i)) : ∀ (incidents : List Incident)
    {world : World}, (∀ i ∈ incidents, allowed i) → p world → p (world.afterAll incidents)
  | [], _, _, hw => hw
  | i :: rest, world, hi, hw =>
    afterAll_keeps h rest (fun j hj => hi j (List.mem_cons_of_mem i hj))
      (h world i (hi i List.mem_cons_self) hw)

/-- An incident joins one wake-up to the records, or none. -/
theorem records_after (world : World) (incident : Incident) :
    (world.after incident).wakeups.records = world.wakeups.records ∨ ∃ user w,
      (world.after incident).wakeups.records = world.wakeups.records.merge user w := by
  cases incident with
  | request r fate =>
    cases r with
    | upsert user w =>
      obtain h | ⟨h, -⟩ := World.upsert_cases world.wakeups user w fate
      · exact .inr ⟨user, w, h⟩
      · exact .inl h
    | announce a =>
      left
      unfold after answer
      dsimp only
      split <;> rfl
    | _ => exact .inl rfl
  | setAlarms alarms => exact .inl rfl
  | listen stays => exact .inl rfl

end World

/-! ## Turns -/

/-- What happens before a request, and the fate that the request meets. -/
structure Turn where
  before : List Incident
  fate : Fate
  deriving DecidableEq

/-- Nothing happens, and the request is answered. -/
def Turn.undisturbed : Turn := ⟨[], .answered⟩

/-- What holds of all turns, and of an undisturbed one, holds of the next turn. -/
theorem Turn.headD_of_forall {p : Turn → Prop} (hp : p .undisturbed) :
    ∀ {turns : List Turn}, (∀ t ∈ turns, p t) → p (turns.headD .undisturbed)
  | [], _ => hp
  | t :: _, h => h t List.mem_cons_self

/-- What a store has said in time. -/
theorem inTime_eq_ok {α : Type} {limit : Nat} {reply : Reply α} {a : α}
    (h : inTime limit reply = .ok a) : reply = some (.ok a) := by
  cases reply with
  | none => cases h
  | some answer => exact congrArg some h

/-- A request, and what has come back from it. -/
structure Exchange where
  request : Request
  result : request.Result

/-- The user's latest wake-up has been asked for, and not been told. -/
def Exchange.isFailedRead : Exchange → Bool
  | ⟨.latest _, some (.ok _)⟩ => false
  | ⟨.latest _, _⟩ => true
  | _ => false

/-- Surroundings that are shared, and what one activity has exchanged with them, in order. -/
structure Shared where
  world : World
  exchanges : List Exchange

namespace Shared

/-- A request has its turn. -/
def meet (s : Shared) (turn : Turn) (r : Request) : r.Result × Shared :=
  let (x, world) := (s.world.afterAll turn.before).answer turn.fate r
  (x, ⟨world, s.exchanges ++ [⟨r, x⟩]⟩)

/-- The request has this result in one of the turns `p`. -/
def Meets (p : Turn → Prop) : Meeting Shared := fun s r x s' =>
  ∃ turn, p turn ∧ s.meet turn r = (x, s')

variable {p : Turn → Prop} {s s' : Shared} {r : Request} {x : r.Result}

theorem exchanges_of_meets (h : Meets p s r x s') : s'.exchanges = s.exchanges ++ [⟨r, x⟩] := by
  obtain ⟨turn, -, h⟩ := h
  cases h
  rfl

/-- Whoever is told the latest wake-up is told the one with the latest record. -/
theorem latest_of_meets {user : String} {reply : Reply (Option Wakeup)}
    (h : Meets p s (.latest user) reply s')
    (hread : Exchange.isFailedRead ⟨.latest user, reply⟩ = false) :
    reply = some (.ok (s'.world.wakeups.records.latest? user)) := by
  obtain ⟨turn, -, h⟩ := h
  cases h
  show turn.fate.reply _ = _
  generalize turn.fate = fate at hread
  cases fate with
  | answered => rfl
  | unwritten fault => rfl
  | down reason => cases hread
  | givenUp stage => cases hread

end Shared

namespace Activity

variable {α : Type}

/-- The activity with the turns of its requests in order, undisturbed when there are no more. -/
def runAmid : Activity α → List Turn → Shared → α × Shared
  | .done a, _, s => (a, s)
  | .ask r next, turns, s =>
    let (x, s) := s.meet (turns.headD .undisturbed) r
    (next x).runAmid turns.tail s

/-- A request has the next turn. -/
theorem runAmid_request_bind {r : Request} {f : r.Result → Activity α} {turns : List Turn}
    {s : Shared} : (request r >>= f).runAmid turns s =
      (f (s.meet (turns.headD .undisturbed) r).1).runAmid turns.tail
        (s.meet (turns.headD .undisturbed) r).2 :=
  rfl

theorem Ensures.runAmid {p : Turn → Prop} {a : Activity α} {Q : α → Shared → Prop} {s : Shared}
    (h : a.Ensures (Shared.Meets p) Q s) (hp : p .undisturbed) {turns : List Turn}
    (hturns : ∀ t ∈ turns, p t) : Q (a.runAmid turns s).1 (a.runAmid turns s).2 := by
  induction a generalizing s turns with
  | done a => exact h
  | ask r next ih =>
    refine ih _ (h _ _ ⟨_, Turn.headD_of_forall hp hturns, rfl⟩) fun t ht => hturns t ?_
    exact List.mem_of_mem_tail ht

end Activity

end Reveille
