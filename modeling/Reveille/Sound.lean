import Reveille.Number.Shortest

/-!
# Sound

What is to be heard. A `Player` plays one loop at a time, the silent one or the alarm, at a
volume from 0 to 1; a loop that is started replaces the one before it.
-/

namespace Reveille

/-- A loop of sound. -/
inductive Loop where
  | silent
  | alarm
  deriving DecidableEq, Repr

/-- What a player is told to do. -/
inductive SoundCommand where
  | playSilent
  | playAlarm
  | setVolume (level : Binary Format.binary32)
  | stop
  deriving DecidableEq

inductive SoundFault where
  | badVolume (level : Binary Format.binary32)
  /-- The player cannot be reached. -/
  | locked
  deriving DecidableEq

def SoundFault.message : SoundFault → String
  | .badVolume level =>
    "volume " ++ String.ofList (level.text .plain) ++ " is outside 0.0..=1.0"
  | .locked => "audio controller state lock poisoned"

structure Player where
  playing : Option Loop
  volume : Binary Format.binary32
  deriving DecidableEq

namespace Player

/-- Nothing is played, at half the full volume. -/
def initial : Player := ⟨none, Binary.round Format.binary32 false 1 2⟩

instance : Inhabited Player := ⟨initial⟩

/-- The alarm is to be heard. -/
def isRinging (p : Player) : Bool := p.playing = some .alarm

/-- The player after a command, or why it does not follow it. -/
def obey (p : Player) : SoundCommand → Except SoundFault Player
  | .playSilent => .ok { p with playing := some .silent }
  | .playAlarm => .ok { p with playing := some .alarm }
  | .setVolume level =>
    if level.InUnitInterval then .ok { p with volume := level } else .error (.badVolume level)
  | .stop => .ok { p with playing := none }

end Player

end Reveille
