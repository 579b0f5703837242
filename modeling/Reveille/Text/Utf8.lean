import Reveille.Text.Decimal

/-!
# UTF-8

Bytes read as text. A character of one byte is below `0x80`; a longer one begins with a lead
byte, which says how many bytes follow and what the first of these may be, so that no
character has two forms and no surrogate has any. A fault tells the index at which the last
whole character ends and, unless the bytes break off there, how many bytes are at fault.
-/

namespace Reveille.Text.Utf8

inductive Fault where
  /-- So many bytes at an index are no part of a character. -/
  | invalid (count index : Nat)
  /-- The bytes end within a character. -/
  | incomplete (index : Nat)
  deriving DecidableEq, Repr

def Fault.message : Fault → String
  | .invalid count index =>
    "invalid utf-8 sequence of " ++ String.ofList (digits count) ++ " bytes from index "
      ++ String.ofList (digits index)
  | .incomplete index =>
    "incomplete utf-8 byte sequence from index " ++ String.ofList (digits index)

/-- What a lead byte says : the bits that it adds to the character, how many bytes follow,
and the least and the greatest that the first of them may be. -/
structure Lead where
  bits : Nat
  tails : Nat
  least : Nat
  most : Nat
  deriving DecidableEq, Repr

def lead? (b : Nat) : Option Lead :=
  if b < 0x80 then some ⟨b, 0, 0, 0⟩
  else if 0xC2 ≤ b ∧ b ≤ 0xDF then some ⟨b - 0xC0, 1, 0x80, 0xBF⟩
  else if b = 0xE0 then some ⟨0, 2, 0xA0, 0xBF⟩
  else if b = 0xED then some ⟨0xD, 2, 0x80, 0x9F⟩
  else if 0xE1 ≤ b ∧ b ≤ 0xEF then some ⟨b - 0xE0, 2, 0x80, 0xBF⟩
  else if b = 0xF0 then some ⟨0, 3, 0x90, 0xBF⟩
  else if b = 0xF4 then some ⟨4, 3, 0x80, 0x8F⟩
  else if 0xF1 ≤ b ∧ b ≤ 0xF3 then some ⟨b - 0xF0, 3, 0x80, 0xBF⟩
  else none

/-- What is still wanted of a character : its bits so far, the bytes that have been read,
the bytes that follow, and the bounds of the next. -/
structure Begun where
  bits : Nat
  seen : Nat
  tails : Nat
  least : Nat
  most : Nat
  deriving DecidableEq, Repr

/-- The characters of bytes, from an index on at which `part` of a character has begun. -/
def decodeFrom (index : Nat) : Option Begun → List UInt8 → Except Fault (List Char)
  | none, [] => .ok []
  | some _, [] => .error (.incomplete index)
  | none, b :: bs =>
    match lead? b.toNat with
    | none => .error (.invalid 1 index)
    | some l =>
      if l.tails = 0 then (decodeFrom (index + 1) none bs).map (Char.ofNat l.bits :: ·)
      else decodeFrom index (some ⟨l.bits, 1, l.tails, l.least, l.most⟩) bs
  | some p, b :: bs =>
    if b.toNat < p.least ∨ p.most < b.toNat then .error (.invalid p.seen index)
    else
      let bits := p.bits * 64 + (b.toNat - 0x80)
      if p.tails = 1 then
        (decodeFrom (index + p.seen + 1) none bs).map (Char.ofNat bits :: ·)
      else decodeFrom index (some ⟨bits, p.seen + 1, p.tails - 1, 0x80, 0xBF⟩) bs

/-- The text of bytes. -/
def decode (bytes : List UInt8) : Except Fault String :=
  (decodeFrom 0 none bytes).map String.ofList

/-! ## Lines -/

/-- The lines of bytes, each with the line feed that ends it. -/
def lines : List UInt8 → List (List UInt8)
  | [] => []
  | b :: bs =>
    if b = 10 then [b] :: lines bs
    else
      match lines bs with
      | [] => [[b]]
      | l :: ls => (b :: l) :: ls

/-- A line without the line feed at its end, nor a carriage return before that. -/
def withoutLineEnd (s : String) : String :=
  match s.toList.reverse with
  | '\n' :: '\r' :: cs => String.ofList cs.reverse
  | '\n' :: cs => String.ofList cs.reverse
  | _ => s

end Reveille.Text.Utf8
