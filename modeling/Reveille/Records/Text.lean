import Reveille.Records
import Reveille.Wakeup.Json

/-!
# Record files

A record file is a JSON record of a version and the list of wake-ups. Each of these is an
object with the user and, beside it, the members of the wake-up. Their values are kept
until the object ends and only then looked at, so a fault in them is placed behind the
object. Records of one occurrence are joined in the order of the file.
-/

namespace Reveille

open Json

namespace Record

/-- What has been read of a record : the user, and the other members from the last one on. -/
structure Draft where
  user : Option String
  others : List (String × Value)

namespace Draft

def empty : Draft := ⟨none, []⟩

/-- How deep the values beside the user may be nested, within file, list and record. -/
def depth : Nat := Value.depthLimit - 3

/-- How a member of a record is read. -/
def readMember (name : String) (d : Draft) : Except Problem (Reader Draft) :=
  if name = "user_id" then
    match d.user with
    | some _ => .error (.duplicateField name)
    | none => .ok (Decoder.text.reader.map fun s => { d with user := some s })
  else .ok ((Value.reader depth).map fun v => { d with others := (name, v) :: d.others })

/-- A draft with a member taken from a value. -/
def takeMember (d : Draft) (entry : String × Value) : Except Problem Draft :=
  if entry.1 = "user_id" then
    match d.user with
    | some _ => .error (.duplicateField entry.1)
    | none => (Decoder.text.take entry.2).map fun s => { d with user := some s }
  else .ok { d with others := entry :: d.others }

def finish (d : Draft) : Except Problem Record := do
  let user ← (required "user_id" d.user).mapError .missingField
  let wakeup ← Wakeup.shape.takeObject d.others.reverse
  .ok ⟨user, wakeup⟩

end Draft

/-- How a message calls a record. -/
def label : String := "struct WakeupRecord"

def decoder : Decoder Record where
  reader :=
    .dispatch fun ch =>
      if ch = '\x7b' then (Reader.object Draft.readMember .empty).check Draft.finish
      else .mismatch label
  take
    | .object entries => do
      let d ← entries.foldlM Draft.takeMember Draft.empty
      d.finish
    | v => .error (.wrongKind v.kind label)

def json (r : Record) : Value := .object (("user_id", .string r.user) :: r.wakeup.jsonMembers)

end Record

namespace Records

/-- The version of the file format. -/
def version : Nat := 1

/-- The members of a file that have been read. -/
structure Given where
  version : Option Nat
  entries : Option (List Record)

def Given.finish (g : Given) : Except String (Nat × List Record) := do
  let version ← required "version" g.version
  .ok (version, g.entries.getD [])

def shape : Shape Given (Nat × List Record) where
  label := "struct WakeupFile"
  members := [
    .of "version" Given.version (fun g n => { g with version := some n }) .word32,
    .of "wakeups" Given.entries (fun g es => { g with entries := some es })
      (.list Record.decoder)]
  draft := ⟨none, none⟩
  finish := Given.finish

def json (rs : Records) : Value := .object [
  ("version", .integer version),
  ("wakeups", .array (rs.toList.map Record.json))]

/-- The text of the file that holds the records. -/
def fileText (rs : Records) : String := rs.json.pretty ++ "\n"

end Records

end Reveille
