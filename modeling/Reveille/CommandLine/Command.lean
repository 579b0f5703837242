import Reveille.Text.Blank

/-!
# Commands

What a user may type while a session runs. A line is split at blanks; its first word is the
command, in small letters, and the second one the photo of an acknowledgment. Other words
are ignored.
-/

namespace Reveille

inductive Command where
  | ack (photo : Option String)
  | silence
  | status
  | quit
  deriving DecidableEq, Repr

/-- The command on a line. -/
def Command.parse? (line : String) : Option Command :=
  match (Text.words line.toList).map String.ofList with
  | [] => none
  | word :: rest =>
    if word = "ack" then some (.ack rest.head?)
    else if word = "silence" then some .silence
    else if word = "status" then some .status
    else if word = "quit" ∨ word = "exit" then some .quit
    else none

end Reveille
