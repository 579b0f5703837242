import Reveille.Json.Record
import Reveille.Json.Write
import Reveille.Wakeup

/-!
# Wake-ups as JSON

A wake-up is a record of its instant and its acknowledgment, which may be missing or null.
The photo of an acknowledgment is left out when there is none, the acknowledgment of a
wake-up is not.
-/

namespace Reveille

open Json

/-- An instant as a JSON string. -/
def Instant.json (i : Instant) : Value := .string (String.ofList i.rfc3339)

/-! ## Acknowledgments -/

namespace Acknowledgment

/-- The members of an acknowledgment that have been read. -/
structure Draft where
  instant : Option Instant
  photo : Option (Option String)

def Draft.finish (d : Draft) : Except String Acknowledgment := do
  let instant ← required "ack_instant" d.instant
  .ok ⟨instant, d.photo.join⟩

def shape : Shape Draft Acknowledgment where
  label := "struct Acknowledgment"
  members := [
    .of "ack_instant" Draft.instant (fun d i => { d with instant := some i }) .instant,
    .of "photo_reference" Draft.photo (fun d p => { d with photo := some p })
      (.optional .text)]
  draft := ⟨none, none⟩
  finish := Draft.finish

def json (a : Acknowledgment) : Value :=
  .object (("ack_instant", a.instant.json) ::
    match a.photo with
    | some photo => [("photo_reference", .string photo)]
    | none => [])

end Acknowledgment

/-! ## Wake-ups -/

namespace Wakeup

/-- The members of a wake-up that have been read. -/
structure Draft where
  alarmInstant : Option Instant
  acknowledgment : Option (Option Acknowledgment)

def Draft.finish (d : Draft) : Except String Wakeup := do
  let alarmInstant ← required "alarm_instant" d.alarmInstant
  .ok ⟨alarmInstant, d.acknowledgment.join⟩

def shape : Shape Draft Wakeup where
  label := "struct Wakeup"
  members := [
    .of "alarm_instant" Draft.alarmInstant (fun d i => { d with alarmInstant := some i })
      .instant,
    .of "acknowledgment" Draft.acknowledgment (fun d a => { d with acknowledgment := some a })
      (.optional Acknowledgment.shape.decoder)]
  draft := ⟨none, none⟩
  finish := Draft.finish

/-- The members of a wake-up's record. -/
def jsonMembers (w : Wakeup) : List (String × Value) :=
  [("alarm_instant", w.alarmInstant.json),
    ("acknowledgment", (w.acknowledgment.map Acknowledgment.json).getD .null)]

def json (w : Wakeup) : Value := .object w.jsonMembers

/-- The wake-up that a JSON text denotes. -/
def parse (text : String) : Except Json.Fault Wakeup := shape.decoder.reader.parse text

end Wakeup

end Reveille
