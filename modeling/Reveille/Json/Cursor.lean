import Reveille.Instant.Text
import Reveille.Json.Value

/-!
# A place in a JSON text

A `Cursor` is what is left of a text, with the line and the column reached : lines count
from 1, and the column is the number of bytes since the last line feed. A `Fault` is a
problem at such a position, either where the cursor stands or just past the byte it stands
before (`ahead`).

A `Reader` takes a value off the front of the text. It comes with a proof that it consumes
at least one character when it succeeds, which is what bounds the loops over elements and
members.
-/

namespace Reveille.Json

open Text

/-! ## Problems -/

/-- What is wrong with a text. -/
inductive Problem where
  | endInValue
  | endInObject
  | endInArray
  | endInString
  | noValue
  | noWord
  | noColon
  | noArrayEnd
  | noObjectEnd
  | keyNotString
  | trailingComma
  | trailingText
  | badNumber
  | numberOutOfRange
  | badEscape
  | controlCharacter
  | halfSurrogatePair
  | loneSurrogate
  | tooDeep
  | missingField (name : String)
  | duplicateField (name : String)
  /-- A value of one kind where another is wanted. -/
  | wrongKind (found : Kind) (wanted : String)
  /-- An integer that does not fit. -/
  | wrongInteger (n : Int) (wanted : String)
  /-- A sequence that ends early or late. -/
  | wrongLength (n : Nat) (wanted : String)
  | badInstant (fault : InstantFault)
  deriving DecidableEq

def Problem.message : Problem → String
  | .endInValue => "EOF while parsing a value"
  | .endInObject => "EOF while parsing an object"
  | .endInArray => "EOF while parsing a list"
  | .endInString => "EOF while parsing a string"
  | .noValue => "expected value"
  | .noWord => "expected ident"
  | .noColon => "expected `:`"
  | .noArrayEnd => "expected `,` or `]`"
  | .noObjectEnd => "expected `,` or `\x7d`"
  | .keyNotString => "key must be a string"
  | .trailingComma => "trailing comma"
  | .trailingText => "trailing characters"
  | .badNumber => "invalid number"
  | .numberOutOfRange => "number out of range"
  | .badEscape => "invalid escape"
  | .controlCharacter => "control character (\\u0000-\\u001F) found while parsing a string"
  | .halfSurrogatePair => "unexpected end of hex escape"
  | .loneSurrogate => "lone leading surrogate in hex escape"
  | .tooDeep => "recursion limit exceeded"
  | .missingField name => "missing field `" ++ name ++ "`"
  | .duplicateField name => "duplicate field `" ++ name ++ "`"
  | .wrongKind found wanted => "invalid type: " ++ found.text ++ ", expected " ++ wanted
  | .wrongInteger n wanted =>
    "invalid value: integer `" ++ String.ofList (integer n) ++ "`, expected " ++ wanted
  | .wrongLength n wanted =>
    "invalid length " ++ String.ofList (digits n) ++ ", expected " ++ wanted
  | .badInstant fault => fault.message

/-- A line, from 1, and the bytes before a place on it. -/
structure Position where
  line : Nat
  column : Nat
  deriving DecidableEq, Repr

/-- A problem and where it was noticed. -/
structure Fault where
  problem : Problem
  position : Position
  deriving DecidableEq

def Fault.message (fault : Fault) : String :=
  fault.problem.message ++ " at line " ++ String.ofList (digits fault.position.line)
    ++ " column " ++ String.ofList (digits fault.position.column)

/-! ## Cursors -/

/-- What is left of a text and where it begins. -/
structure Cursor where
  rest : List Char
  line : Nat
  column : Nat

namespace Cursor

/-- The start of a text. -/
def start (text : String) : Cursor := ⟨text.toList, 1, 0⟩

def position (c : Cursor) : Position := ⟨c.line, c.column⟩

/-- The place after one more character. -/
def advance (line column : Nat) (ch : Char) : Position :=
  if ch = '\n' then ⟨line + 1, 0⟩ else ⟨line, column + ch.utf8Size⟩

/-- The cursor past its first character. -/
def next (c : Cursor) : Cursor :=
  match c.rest with
  | [] => c
  | ch :: cs => let p := advance c.line c.column ch; ⟨cs, p.line, p.column⟩

/-- The place after `n` bytes of a text, or after the whole text where it is shorter. -/
def afterBytes : Nat → Position → List Char → Position
  | 0, p, _ => p
  | _, p, [] => p
  | n, p, ch :: cs =>
    if ch.utf8Size ≤ n then afterBytes (n - ch.utf8Size) (advance p.line p.column ch) cs
    else ⟨p.line, p.column + n⟩
termination_by _ _ cs => cs.length

/-- The place after the next byte. -/
def ahead (c : Cursor) : Position := afterBytes 1 c.position c.rest

/-- The place after `n` bytes. -/
def aheadBy (c : Cursor) (n : Nat) : Position := afterBytes n c.position c.rest

/-- A problem where the cursor stands. -/
def here (c : Cursor) (problem : Problem) : Fault := ⟨problem, c.position⟩

/-- A problem with the next byte. -/
def faultAhead (c : Cursor) (problem : Problem) : Fault := ⟨problem, c.ahead⟩

def blanksFrom : List Char → Nat → Nat → Cursor
  | [], line, column => ⟨[], line, column⟩
  | ch :: cs, line, column =>
    if ch = ' ' ∨ ch = '\t' ∨ ch = '\r' then blanksFrom cs line (column + 1)
    else if ch = '\n' then blanksFrom cs (line + 1) 0
    else ⟨ch :: cs, line, column⟩

/-- The cursor past the blanks of JSON : space, tabulator, line feed, carriage return. -/
def blanks (c : Cursor) : Cursor := blanksFrom c.rest c.line c.column

theorem length_next_of_cons {c : Cursor} {ch : Char} {cs : List Char} (h : c.rest = ch :: cs) :
    c.next.rest.length < c.rest.length := by
  simp [next, h]

theorem length_next_le (c : Cursor) : c.next.rest.length ≤ c.rest.length := by
  unfold next
  split <;> simp_all

theorem length_blanksFrom_le : ∀ (cs : List Char) (line column : Nat),
    (blanksFrom cs line column).rest.length ≤ cs.length
  | [], _, _ => by simp [blanksFrom]
  | ch :: cs, line, column => by
    have h₁ := length_blanksFrom_le cs line (column + 1)
    have h₂ := length_blanksFrom_le cs (line + 1) 0
    simp only [blanksFrom, List.length_cons]
    split
    · omega
    · split
      · omega
      · simp

theorem length_blanks_le (c : Cursor) : c.blanks.rest.length ≤ c.rest.length :=
  length_blanksFrom_le c.rest c.line c.column

end Cursor

/-! ## Readers -/

/-- Takes something off the front of a text. -/
abbrev Take (α : Type) := Cursor → Except Fault (α × Cursor)

/-- It consumes at least one character when it succeeds. -/
def Take.Consumes {α : Type} (t : Take α) : Prop :=
  ∀ {c : Cursor} {a : α} {c' : Cursor}, t c = .ok (a, c') → c'.rest.length < c.rest.length

/-- Takes a value off the front of a text, blanks before it included. -/
structure Reader (α : Type) where
  run : Take α
  consumes : run.Consumes

theorem bind_eq_ok {ε α β : Type} {x : Except ε α} {f : α → Except ε β} {b : β} :
    (x >>= f) = .ok b ↔ ∃ a, x = .ok a ∧ f a = .ok b := by
  cases x <;> simp [bind, Except.bind]

namespace Reader

variable {α β : Type}

/-- The reader with its value changed. -/
def map (f : α → β) (r : Reader α) : Reader β where
  run c := do
    let (a, c') ← r.run c
    .ok (f a, c')
  consumes := by
    intro c b c' h
    obtain ⟨⟨a, c₁⟩, h₁, h₂⟩ := bind_eq_ok.mp h
    simp only [Except.ok.injEq, Prod.mk.injEq] at h₂
    obtain ⟨-, rfl⟩ := h₂
    exact r.consumes h₁

/-- The reader with its value checked, a problem standing where the value ends. -/
def check (f : α → Except Problem β) (r : Reader α) : Reader β where
  run c := do
    let (a, c') ← r.run c
    match f a with
    | .ok b => .ok (b, c')
    | .error problem => .error (c'.here problem)
  consumes := by
    intro c b c' h
    obtain ⟨⟨a, c₁⟩, h₁, h₂⟩ := bind_eq_ok.mp h
    simp only at h₂
    split at h₂
    · simp only [Except.ok.injEq, Prod.mk.injEq] at h₂
      obtain ⟨-, rfl⟩ := h₂
      exact r.consumes h₁
    · simp at h₂

/-- A reader that depends on the first character after blanks. -/
def dispatch (branch : Char → Reader α) : Reader α where
  run c :=
    match c.blanks.rest with
    | [] => .error (c.blanks.here .endInValue)
    | ch :: _ => (branch ch).run c.blanks
  consumes := by
    intro c a c' h
    dsimp only at h
    split at h
    · simp at h
    · exact Nat.lt_of_lt_of_le ((branch _).consumes h) c.length_blanks_le

/-- A reader that refuses every text, with the fault of a place. -/
def refuse (fault : Cursor → Fault) : Reader α where
  run c := .error (fault c)
  consumes := by
    intro c a c' h
    simp at h

/-- The value of a whole text. -/
def parse (r : Reader α) (text : String) : Except Fault α := do
  let (a, c) ← r.run (Cursor.start text)
  match c.blanks.rest with
  | [] => .ok a
  | _ => .error (c.blanks.faultAhead .trailingText)

end Reader

end Reveille.Json
