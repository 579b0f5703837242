import Reveille.Config

/-!
# Faults of stores

Why a call of a store gives no answer, and how that is worded. Where one fault has another
for its cause, the wording of the first includes that of the second; `StoreFault.causes`
lists both, for a report that goes down to the cause.
-/

namespace Reveille

open Text

inductive StoreFault where
  /-- The file at a path cannot be read or written. -/
  | file (path : String) (fault : FileFault)
  | notJson (fault : Json.Fault)
  | unsupportedVersion (version : Nat)
  | config (fault : Config.Fault)
  /-- No answer within so many milliseconds. -/
  | timedOut (limit : Nat)
  | unavailable (reason : String)
  deriving DecidableEq

namespace StoreFault

def message : StoreFault → String
  | .file path fault => "store I/O failed for " ++ path ++ ": " ++ fault.message
  | .notJson fault => "store data is not valid JSON: " ++ fault.message
  | .unsupportedVersion version =>
    "unsupported wakeup file version " ++ String.ofList (digits version)
      ++ "; expected version 1"
  | .config fault => "config store failed: " ++ fault.message
  | .timedOut limit => "store call timed out after " ++ durationText limit
  | .unavailable reason => "store is unavailable: " ++ reason

/-- The message, followed by those of the causes behind it. -/
def causes (fault : StoreFault) : List String :=
  fault.message ::
    match fault with
    | .file _ cause => [cause.message]
    | .notJson cause => [cause.message]
    | .config cause => cause.causes
    | _ => []

end StoreFault

/-- How a write to a file ends. -/
abbrev Write := Except FileFault Unit

end Reveille
