import Reveille.Config.Text
import Reveille.Store.Fault

/-!
# The alarm store

The alarms of all users, in memory and in the configuration file. Saving an alarm writes
the file first : the memory changes only if that succeeds.
-/

namespace Reveille

structure AlarmStore where
  /-- Where the configuration file is. -/
  path : String
  config : Config
  /-- What the file holds, none if it does not exist. -/
  file : Option String
  deriving DecidableEq

namespace AlarmStore

/-- The store of what has been found at a path. -/
def load (path : String) (content : Except FileFault String) :
    Except Config.Fault AlarmStore := do
  let text ← content.mapError (.unreadable path)
  let config ← Config.parse text
  .ok ⟨path, config, some text⟩

def alarmOf? (s : AlarmStore) (user : String) : Option Alarm := s.config.alarmOf? user

/-- The store after an alarm has been set, `write` being the outcome of writing its file. -/
def save (s : AlarmStore) (user : String) (alarm : Alarm) (write : Write) :
    Except StoreFault AlarmStore :=
  match write with
  | .ok () =>
    let config := s.config.setAlarm user alarm
    .ok { s with config, file := some config.fileText }
  | .error fault => .error (.config (.unwritable s.path fault))

end AlarmStore

end Reveille
