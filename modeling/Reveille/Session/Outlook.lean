import Reveille.Session.World

/-!
# How requests fare

An `Outlook` lists, for each target of requests, how the next requests to it will fare :
each entry is used up by one request, and a target without entries answers at once. A
store's answer may come after a delay. A delay longer than the time limit ends in a call
that is given up before its target has begun; a delay of just the limit leaves time for an
answer out of the memory, but not for a file that has to be written, whose call is given up
although the file is written. An entry can also name the fate itself (`Response.fated`).

`Activity.runAt` runs an activity to its end with all delays, in a world that nobody else
acts on.
-/

namespace Reveille

/-- Where a request goes, apart from the variables that the activities share. -/
inductive Target where
  | alarm
  | latest
  | upsert
  | silentLoop
  | alarmLoop
  | volume
  | stop
  deriving DecidableEq, Repr

/-- The target of a request. -/
def Request.target? : Request → Option Target
  | .alarmOf _ => some .alarm
  | .latest _ => some .latest
  | .upsert _ _ => some .upsert
  | .sound .playSilent => some .silentLoop
  | .sound .playAlarm => some .alarmLoop
  | .sound (.setVolume _) => some .volume
  | .sound .stop => some .stop
  | _ => none

/-- How one request to a target fares. -/
inductive Response where
  | prompt
  | late (delay : Nat)
  | down (reason : String)
  /-- A store meets the request with a fate, after a delay within the time limit; a call that
  is given up takes the whole limit. -/
  | fated (delay : Nat) (fate : Fate)
  deriving DecidableEq

/-- How long a store's caller waits for a fate that would take `delay`. -/
def Fate.wait (fate : Fate) (limit delay : Nat) : Nat :=
  match fate with
  | .givenUp _ => limit
  | _ => min delay limit

namespace Response

/-- The fate of a request and the milliseconds until it is met. -/
def settle (response : Response) (limit : Nat) : Request → Nat × Fate
  | .alarmOf _ | .latest _ =>
    match response with
    | .prompt => (0, .answered)
    | .late delay => if limit < delay then (limit, .givenUp .untouched) else (delay, .answered)
    | .down reason => (0, .down reason)
    | .fated delay fate => (fate.wait limit delay, fate)
  | .upsert _ _ =>
    match response with
    | .prompt => (0, .answered)
    | .late delay =>
      if limit < delay then (limit, .givenUp .untouched)
      else if delay = limit then (limit, .givenUp .written)
      else (delay, .answered)
    | .down reason => (0, .down reason)
    | .fated delay fate => (fate.wait limit delay, fate)
  | _ =>
    match response with
    | .down reason => (0, .down reason)
    | _ => (0, .answered)

end Response

/-- How the next requests to each target fare. -/
structure Outlook where
  responses : Target → List Response

namespace Outlook

/-- Everything is answered at once. -/
def clear : Outlook := ⟨fun _ => []⟩

instance : Inhabited Outlook := ⟨clear⟩

/-- The outlook with other responses of a target. -/
def set (o : Outlook) (t : Target) (rs : List Response) : Outlook :=
  ⟨fun u => if u = t then rs else o.responses u⟩

/-- How the next request to a target fares, and the outlook after it. -/
def next (o : Outlook) (t : Target) : Response × Outlook :=
  match o.responses t with
  | [] => (.prompt, o)
  | r :: rs => (r, o.set t rs)

/-- The delay and the fate of a request, and the outlook after it. -/
def meet (o : Outlook) (limit : Nat) (r : Request) : (Nat × Fate) × Outlook :=
  match r.target? with
  | none => ((0, .answered), o)
  | some t => let (response, o) := o.next t; (response.settle limit r, o)

end Outlook

/-! ## Rehearsals -/

/-- A world, the outlook on it, and what has been noticed when, the last first. -/
structure Rehearsal where
  world : World
  outlook : Outlook
  notices : List (Nat × Notice)

namespace Rehearsal

def note (s : Rehearsal) (time : Nat) (notice : Option Notice) : Rehearsal :=
  match notice with
  | some n => { s with notices := (time, n) :: s.notices }
  | none => s

/-- A request is made : when and how it will be met. -/
def make (s : Rehearsal) (limit time : Nat) (r : Request) : Nat × Fate × Rehearsal :=
  let ((delay, fate), outlook) := s.outlook.meet limit r
  let s := { s with outlook }
  let looked : Option Notice :=
    match r with
    | .alarmOf _ => some .looked
    | _ => none
  (time + delay, fate, s.note time looked)

/-- A request is met. -/
def meet (s : Rehearsal) (time : Nat) (fate : Fate) (r : Request) : r.Result × Rehearsal :=
  let (result, world) := s.world.answer fate r
  (result, { s with world }.note time (r.notice? s.world result))

end Rehearsal

/-- The activity from a time on, up to its end : its result, the time then, and what it has
changed. -/
def Activity.runAt {α : Type} (limit : Nat) : Activity α → Nat → Rehearsal → α × Nat × Rehearsal
  | .done a, time, s => (a, time, s)
  | .ask r next, time, s =>
    let (due, fate, s) := s.make limit time r
    let (result, s) := s.meet due fate r
    (next result).runAt limit due s

end Reveille
