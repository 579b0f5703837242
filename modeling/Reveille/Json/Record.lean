import Reveille.Json.Decoder
import Reveille.Json.Skip

/-!
# Records

A record is written as an object whose members may stand in any order, or as an array of
its members in their order. A `Shape` lists the members; reading fills in a draft, which
`Shape.finish` turns into the record at the end.

In an object a member may be given once, members of other names are skipped, and a member
that is missing without a default is a fault placed behind the object. In an array the
last members may be left out, and a missing member counts as a wrong length.
-/

namespace Reveille.Json

open Cursor

/-- A member of a record that is read into a draft of type `σ`. -/
structure Member (σ : Type) where
  name : String
  /-- The draft has this member already. -/
  isGiven : σ → Bool
  decoder : Decoder (σ → σ)

namespace Member

variable {σ α : Type}

/-- A member with the decoder of its value. -/
def of (name : String) (get : σ → Option α) (set : σ → α → σ) (d : Decoder α) : Member σ where
  name := name
  isGiven s := (get s).isSome
  decoder := ⟨d.reader.map fun a s => set s a, fun v => (d.take v).map fun a s => set s a⟩

end Member

/-- The members of a record. -/
structure Shape (σ α : Type) where
  /-- How a message calls the record. -/
  label : String
  members : List (Member σ)
  draft : σ
  /-- The record of a draft, or the first member that it lacks. -/
  finish : σ → Except String α

/-- A member that must be given. -/
def required {α : Type} (name : String) : Option α → Except String α
  | some a => .ok a
  | none => .error name

namespace Shape

variable {σ α : Type} (shape : Shape σ α)

def member? (name : String) : Option (Member σ) := shape.members.find? (·.name = name)

/-! ## Objects -/

/-- How a member of an object is read. -/
def readMember (name : String) (s : σ) : Except Problem (Reader σ) :=
  match shape.member? name with
  | none => .ok (Reader.skip.map fun _ => s)
  | some m =>
    if m.isGiven s then .error (.duplicateField name)
    else .ok (m.decoder.reader.map fun f => f s)

/-- The record of the members of an object. -/
def finishObject (s : σ) : Except Problem α := (shape.finish s).mapError .missingField

def objectReader : Reader α :=
  (Reader.object shape.readMember shape.draft).check shape.finishObject

/-- A draft with a member taken from a value. -/
def takeMember (s : σ) (entry : String × Value) : Except Problem σ :=
  match shape.member? entry.1 with
  | none => .ok s
  | some m =>
    if m.isGiven s then .error (.duplicateField entry.1)
    else (m.decoder.take entry.2).map fun f => f s

/-- The record of an object's members that have been read already. -/
def takeObject (entries : List (String × Value)) : Except Problem α := do
  let s ← entries.foldlM shape.takeMember shape.draft
  shape.finishObject s

/-! ## Arrays -/

/-- What a message says is wanted of an array. -/
def arrayLabel : String :=
  shape.label ++ " with " ++ String.ofList (Text.digits shape.members.length) ++ " elements"

/-- The record of the elements of an array. A missing member is reported by its place. -/
def finishArray (s : σ) : Except Problem α :=
  (shape.finish s).mapError fun name =>
    .wrongLength (shape.members.findIdx (·.name = name)) shape.arrayLabel

/-- The elements of an array, one for each of the members left, until the array ends. -/
def readElements : List (Member σ) → Bool → σ → Take σ
  | [], _, s, c => .ok (s, c)
  | m :: ms, first, s, c =>
    match nextElement m.decoder.reader first c with
    | .error fault => .error fault
    | .ok (none, c') => .ok (s, c')
    | .ok (some f, c') => readElements ms false (f s) c'

/-- Past the end of an array that has nothing more to read. -/
def closeArray : Take Unit := fun c =>
  let b := c.blanks
  match b.rest with
  | [] => .error (b.here .endInArray)
  | ch :: _ =>
    if ch = ']' then .ok ((), b.next)
    else if ch = ',' then
      let d := b.next.blanks
      .error (d.faultAhead (if d.rest.head? = some ']' then .trailingComma else .trailingText))
    else .error (b.faultAhead .trailingText)

/-- The elements of an array behind its bracket. -/
def arrayBody : Take α := fun c => do
  let (s, c₁) ← readElements shape.members true shape.draft c
  match shape.finishArray s with
  | .error problem => .error ((pastArrayEnd c₁).here problem)
  | .ok a => do
    let (_, c₂) ← closeArray c₁
    .ok (a, c₂)

theorem length_readElements_le : ∀ (ms : List (Member σ)) {first : Bool} {s : σ} {c : Cursor}
    {t : σ} {c' : Cursor}, readElements ms first s c = .ok (t, c') →
      c'.rest.length ≤ c.rest.length
  | [], first, s, c, t, c', h => by
    simp only [readElements, Except.ok.injEq, Prod.mk.injEq] at h
    exact Nat.le_of_eq (by rw [h.2])
  | m :: ms, first, s, c, t, c', h => by
    unfold readElements at h
    split at h
    · simp at h
    · next h₁ =>
      simp only [Except.ok.injEq, Prod.mk.injEq] at h
      exact h.2 ▸ length_nextElement_le h₁
    · next h₁ =>
      exact Nat.le_trans (length_readElements_le ms h) (length_nextElement_le h₁)

theorem length_closeArray_le {c : Cursor} {u : Unit} {c' : Cursor}
    (h : closeArray c = .ok (u, c')) : c'.rest.length ≤ c.rest.length := by
  unfold closeArray at h
  simp only at h
  split at h
  · simp at h
  · split at h
    · simp only [Except.ok.injEq, Prod.mk.injEq, true_and] at h
      exact h ▸ Nat.le_trans (length_next_le _) c.length_blanks_le
    · split at h <;> simp at h

theorem length_arrayBody_le {c : Cursor} {a : α} {c' : Cursor}
    (h : shape.arrayBody c = .ok (a, c')) : c'.rest.length ≤ c.rest.length := by
  obtain ⟨⟨s, c₁⟩, h₁, h₂⟩ := bind_eq_ok.mp h
  simp only at h₂
  split at h₂
  · simp at h₂
  · obtain ⟨⟨u, c₂⟩, h₃, h₄⟩ := bind_eq_ok.mp h₂
    simp only [Except.ok.injEq, Prod.mk.injEq] at h₄
    obtain ⟨-, rfl⟩ := h₄
    exact Nat.le_trans (length_closeArray_le h₃) (length_readElements_le _ h₁)

def arrayReader : Reader α := .behind shape.arrayBody shape.length_arrayBody_le

/-- A draft with its members taken from the elements of an array, and the elements that are
left over. -/
def takeElements : List (Member σ) → σ → List Value → Except Problem (σ × List Value)
  | [], s, left => .ok (s, left)
  | _ :: _, s, [] => .ok (s, [])
  | m :: ms, s, v :: vs => do
    let f ← m.decoder.take v
    takeElements ms (f s) vs

/-- The record of an array's elements that have been read already. -/
def takeArray (items : List Value) : Except Problem α := do
  let (s, left) ← takeElements shape.members shape.draft items
  let a ← shape.finishArray s
  if left.isEmpty then .ok a
  else
    .error (.wrongLength items.length
      (String.ofList (Text.digits shape.members.length) ++ " elements in sequence"))

/-! ## Decoders -/

/-- A record that is written as an object or as an array. -/
def decoder : Decoder α where
  reader :=
    .dispatch fun ch =>
      if ch = '\x7b' then shape.objectReader
      else if ch = '[' then shape.arrayReader
      else .mismatch shape.label
  take
    | .object entries => shape.takeObject entries
    | .array items => shape.takeArray items
    | v => .error (.wrongKind v.kind shape.label)

end Shape

end Reveille.Json
