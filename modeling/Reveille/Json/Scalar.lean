import Reveille.Json.Collection
import Reveille.Json.Numeral

/-!
# JSON scalars and whole values

`scalar?` gives the reader of the scalar that starts with a character : a word, a number or
a string. `Reader.ofScalar` reads a scalar of a wanted kind and reports what stands there
instead. A scalar of another kind is read first, so its own faults come before the report,
which is placed behind it; an array or an object is reported where it starts.

`Value.reader` reads any value whose arrays and objects are nested less deeply than a
budget.
-/

namespace Reveille.Json

open Cursor

/-! ## Scalars -/

/-- A reader for one of the words, behind its first letter. -/
def Reader.word (letters : List Char) (value : Value) : Reader Value :=
  (behind (Literal.word letters) (Literal.length_word_le letters)).map fun _ => value

/-- A reader for a number whose first digit stands at the cursor. -/
def Reader.natural : Reader Value :=
  map Numeral.Number.value ⟨Numeral.number false, Numeral.number_consumes false⟩

/-- A reader for a number behind its minus sign. -/
def Reader.negative : Reader Value :=
  (behind (Numeral.number true) fun h => Nat.le_of_lt (Numeral.number_consumes true h)).map
    Numeral.Number.value

/-- A reader for a string behind its quotation mark. -/
def Reader.text : Reader Value :=
  (behind Literal.string fun h => Nat.le_of_lt (Literal.string_consumes h)).map
    fun cs => .string (String.ofList cs)

/-- The reader of the scalar that starts with a character. -/
def scalar? (ch : Char) : Option (Reader Value) :=
  if ch = 'n' then some (.word ['u', 'l', 'l'] .null)
  else if ch = 't' then some (.word ['r', 'u', 'e'] (.bool true))
  else if ch = 'f' then some (.word ['a', 'l', 's', 'e'] (.bool false))
  else if ch = '-' then some .negative
  else if Text.isDigit ch then some .natural
  else if ch = '"' then some .text
  else none

namespace Reader

variable {α : Type}

/-- What is reported of a character that starts no scalar. -/
def noScalar (wanted : String) (ch : Char) (c : Cursor) : Fault :=
  if ch = '[' then c.here (.wrongKind .sequence wanted)
  else if ch = '\x7b' then c.here (.wrongKind .map wanted)
  else c.faultAhead .noValue

/-- A scalar, which `take` accepts or not. -/
def ofScalar (wanted : String) (take : Value → Except Problem α) : Reader α :=
  dispatch fun ch =>
    match scalar? ch with
    | some r => r.check take
    | none => refuse (noScalar wanted ch)

/-- The refusal of every value. -/
def mismatch (wanted : String) : Reader α :=
  ofScalar wanted fun v => .error (.wrongKind v.kind wanted)

/-- Null or a value. -/
def optional (r : Reader α) : Reader (Option α) :=
  dispatch fun ch =>
    if ch = 'n' then (word ['u', 'l', 'l'] .null).map fun _ => none else r.map some

end Reader

/-! ## Values -/

/-- A value with less than `budget` brackets around any of its parts. -/
def Value.reader (budget : Nat) : Reader Value :=
  .dispatch fun ch =>
    match scalar? ch with
    | some r => r
    | none =>
      if ch = '[' ∨ ch = '\x7b' then
        match budget with
        | 0 | 1 => .refuse (·.faultAhead .tooDeep)
        | inner + 2 =>
          if ch = '[' then (Reader.array (reader (inner + 1))).map .array
          else
            (Reader.object
              (fun name members => .ok ((reader (inner + 1)).map fun v => (name, v) :: members))
              []).map
              fun members => .object members.reverse
      else .refuse (·.faultAhead .noValue)

/-- The greatest depth of a text that is read as a value. -/
def Value.depthLimit : Nat := 128

/-- The value that a text denotes. -/
def Value.parse (text : String) : Except Fault Value := (Value.reader depthLimit).parse text

end Reveille.Json
