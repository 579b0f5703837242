import Reveille.Number.Shortest
import Reveille.Text.Quoted

/-!
# JSON values

A JSON value keeps the members of an object in their order and tells integers from other
numbers : a number written without point and exponent that fits 64 bits is an integer.

`Kind` is what a reader reports of a value that it did not expect.
-/

namespace Reveille.Json

inductive Value where
  | null
  | bool (b : Bool)
  | integer (n : Int)
  | real (x : Binary Format.binary64)
  | string (s : String)
  | array (items : List Value)
  | object (members : List (String × Value))

instance : Inhabited Value := ⟨.null⟩

/-- The outside of a value. -/
inductive Kind where
  | null
  | bool (b : Bool)
  | integer (n : Int)
  | real (x : Binary Format.binary64)
  | string (s : String)
  | sequence
  | map
  deriving DecidableEq

def Kind.text : Kind → String
  | .null => "null"
  | .bool b => "boolean `" ++ (if b then "true" else "false") ++ "`"
  | .integer n => "integer `" ++ String.ofList (Text.integer n) ++ "`"
  | .real x => "floating point `" ++ String.ofList (x.text .json) ++ "`"
  | .string s => "string " ++ Text.quoted s
  | .sequence => "sequence"
  | .map => "map"

def Value.kind : Value → Kind
  | .null => .null
  | .bool b => .bool b
  | .integer n => .integer n
  | .real x => .real x
  | .string s => .string s
  | .array _ => .sequence
  | .object _ => .map

/-- The value of an object's member. -/
def Value.get? (name : String) : Value → Option Value
  | .object members => (members.find? (·.1 = name)).map Prod.snd
  | _ => none

end Reveille.Json
