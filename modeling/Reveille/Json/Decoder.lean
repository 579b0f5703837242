import Reveille.Json.Scalar

/-!
# Decoders

A `Decoder` gives meaning to JSON in two ways : it reads a text, and it takes a value that
has been read already. The first knows where a fault lies, the second does not.

Integers are exact : a number with a point or an exponent is none. Wherever a number of a
binary floating point format is wanted, an integer is rounded once, and a real number is
rounded to `binary64` when it is read and once more to the format.
-/

namespace Reveille.Json

/-- How a type is written in JSON. -/
structure Decoder (α : Type) where
  reader : Reader α
  take : Value → Except Problem α

namespace Decoder

variable {α : Type}

/-- A scalar of a wanted kind. -/
def scalar (wanted : String) (take : Value → Except Problem α) : Decoder α :=
  ⟨.ofScalar wanted take, take⟩

/-- A natural number up to a limit. -/
def natural (limit : Nat) (wanted : String) : Decoder Nat :=
  scalar wanted fun
    | .integer n =>
      if 0 ≤ n ∧ n ≤ limit then .ok n.toNat else .error (.wrongInteger n wanted)
    | v => .error (.wrongKind v.kind wanted)

/-- A natural number below `2 ^ 32`. -/
def word32 : Decoder Nat := natural 4294967295 "u32"

/-- A word of 64 bits. -/
def word64 : Decoder UInt64 where
  reader := (natural 18446744073709551615 "u64").reader.map UInt64.ofNat
  take v := ((natural 18446744073709551615 "u64").take v).map UInt64.ofNat

/-- A number in single precision. -/
def single : Decoder (Binary Format.binary32) :=
  scalar "f32" fun
    | .integer n => .ok (Binary.ofInt Format.binary32 n)
    | .real x => .ok (x.convert Format.binary32)
    | v => .error (.wrongKind v.kind "f32")

def text : Decoder String :=
  scalar "a string" fun
    | .string s => .ok s
    | v => .error (.wrongKind v.kind "a string")

/-- An instant as text. -/
def instant : Decoder Instant :=
  let wanted := "an RFC 3339 formatted date and time string"
  scalar wanted fun
    | .string s => (Instant.parse s.toList).mapError .badInstant
    | v => .error (.wrongKind v.kind wanted)

/-- Null or a value. -/
def optional (d : Decoder α) : Decoder (Option α) where
  reader := d.reader.optional
  take
    | .null => .ok none
    | v => (d.take v).map some

/-- An array with elements of one kind. -/
def list (d : Decoder α) : Decoder (List α) where
  reader :=
    .dispatch fun ch => if ch = '[' then .array d.reader else .mismatch "a sequence"
  take
    | .array items => items.mapM d.take
    | v => .error (.wrongKind v.kind "a sequence")

end Decoder

end Reveille.Json
