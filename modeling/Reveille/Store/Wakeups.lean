import Reveille.Records.Text
import Reveille.Store.Fault

/-!
# The wake-up store

The records of all users, in memory and in a file. An upsert joins a wake-up to the records
in memory and then writes the file; where that fails it puts back the record that was there
before. An upsert that is given up half way may leave the memory ahead of the file.
-/

namespace Reveille

structure WakeupStore where
  /-- Where the file is. -/
  path : String
  records : Records
  /-- What the file holds, none if it does not exist. -/
  file : Option String
  deriving DecidableEq

/-- How far an upsert has come when it is given up. -/
inductive UpsertStage where
  | untouched
  /-- The records in memory have changed. -/
  | merged
  /-- So has the file. -/
  | written
  deriving DecidableEq, Repr

namespace WakeupStore

/-- The records of a file's text. -/
def parse (text : String) : Except StoreFault Records := do
  let (version, entries) ← (Records.shape.decoder.reader.parse text).mapError .notJson
  if version = Records.version then .ok (.ofList entries)
  else .error (.unsupportedVersion version)

/-- The store of what has been found at a path, without records if there is no file. -/
def load (path : String) : Except FileFault String → Except StoreFault WakeupStore
  | .ok text => do
    let records ← parse text
    .ok ⟨path, records, some text⟩
  | .error .missing => .ok ⟨path, .empty, none⟩
  | .error fault => .error (.file path fault)

def latest? (s : WakeupStore) (user : String) : Option Wakeup := s.records.latest? user

/-- The store with a wake-up joined to its records in memory. -/
def merge (s : WakeupStore) (user : String) (w : Wakeup) : WakeupStore :=
  { s with records := s.records.merge user w }

/-- The store with its records written to its file. -/
def flush (s : WakeupStore) : WakeupStore := { s with file := some s.records.fileText }

/-- The store after an upsert, `write` being the outcome of writing its file, and the record
as stored. -/
def upsert (s : WakeupStore) (user : String) (w : Wakeup) (write : Write) :
    Except StoreFault Wakeup × WakeupStore :=
  let merged := s.merge user w
  match write with
  | .ok () => (.ok (s.records.joined user w), merged.flush)
  | .error fault =>
    let previous := s.records.find? user w.alarmInstant
    (.error (.file s.path fault),
      { merged with records := merged.records.restore user w.alarmInstant previous })

/-- The store after an upsert that has been given up. -/
def abandon (s : WakeupStore) (user : String) (w : Wakeup) : UpsertStage → WakeupStore
  | .untouched => s
  | .merged => s.merge user w
  | .written => (s.merge user w).flush

end WakeupStore

end Reveille
