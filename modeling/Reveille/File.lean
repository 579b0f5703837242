import Reveille.Text.Decimal

/-!
# Files

Why a file cannot be read or written. Errors of the operating system are worded as the
system words them, with their number.
-/

namespace Reveille

open Text

inductive FileFault where
  | missing
  | isDirectory
  /-- The bytes are no UTF-8 text. -/
  | notText
  /-- Any other error of the operating system. -/
  | system (number : Nat) (wording : String)
  deriving DecidableEq, Repr

/-- An error of the operating system with its number. -/
def systemMessage (number : Nat) (wording : String) : String :=
  wording ++ " (os error " ++ String.ofList (digits number) ++ ")"

def FileFault.message : FileFault → String
  | .missing => systemMessage 2 "No such file or directory"
  | .isDirectory => systemMessage 21 "Is a directory"
  | .notText => "stream did not contain valid UTF-8"
  | .system number wording => systemMessage number wording

end Reveille
