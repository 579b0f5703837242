import Reveille.Json.Cursor

/-!
# JSON numbers

A number is read in two parts : its digits up to 64 bits give the significand, and further
digits only move the exponent. `Numeral.number` returns an integer for a number without
point and exponent that fits, and `-0` is a real number. `Numeral.skip` checks the form only,
so it lets pass numbers that are too large.
-/

namespace Reveille.Json.Numeral

open Text Cursor

/-- What a number denotes. -/
inductive Number where
  | natural (n : Nat)
  | negative (n : Nat)
  | real (x : Binary Format.binary64)
  deriving DecidableEq

def Number.value : Number → Value
  | .natural n => .integer n
  | .negative n => .integer (-(n : Int))
  | .real x => .real x

/-- The digits at the front of a text. -/
def digitsOf (c : Cursor) : List Char := c.rest.takeWhile isDigit

/-- The cursor past `n` characters of a number. -/
def past (c : Cursor) (n : Nat) : Cursor := ⟨c.rest.drop n, c.line, c.column + n⟩

theorem length_past_le (c : Cursor) (n : Nat) : (past c n).rest.length ≤ c.rest.length := by
  simp [past]

/-- The greatest significand. -/
def significandLimit : Nat := 18446744073709551615

/-- The greatest exponent that is read. -/
def exponentLimit : Nat := 2147483647

/-- Digits added to a significand until the limit is met, and how many are left over. -/
def accumulate (limit : Nat) : Nat → List Char → Nat × List Char
  | acc, [] => (acc, [])
  | acc, d :: ds =>
    let next := acc * 10 + (d.toNat - 48)
    if next ≤ limit then accumulate limit next ds else (acc, d :: ds)

/-- The digits of a whole number : one zero, or a run that starts with another digit. -/
def wholeDigits : Take (List Char) := fun c =>
  match digitsOf c with
  | [] =>
    match c.rest with
    | [] => .error (c.here .endInValue)
    | _ => .error (c.faultAhead .badNumber)
  | d :: ds =>
    if d = '0' ∧ ds ≠ [] then .error (c.next.faultAhead .badNumber)
    else .ok (d :: ds, past c (ds.length + 1))

/-- The digits behind a decimal point, at least one. -/
def fractionDigits : Take (List Char) := fun c =>
  match digitsOf c with
  | [] =>
    match c.rest with
    | [] => .error (c.here .endInValue)
    | _ => .error (c.faultAhead .badNumber)
  | ds => .ok (ds, past c ds.length)

/-- A sign. -/
def signOf (c : Cursor) : Bool × Cursor :=
  match c.rest with
  | '+' :: _ => (false, c.next)
  | '-' :: _ => (true, c.next)
  | _ => (false, c)

/-- The exponent of a number, behind its letter, and how it meets the exponent so far. None
stands for an exponent so far below zero that the number is zero. -/
def exponent (significand : Nat) (start : Int) : Take (Option Int) := fun c =>
  let (negative, c₁) := signOf c
  match digitsOf c₁ with
  | [] =>
    match c₁.rest with
    | [] => .error (c₁.here .endInValue)
    | _ => .error (c₁.faultAhead .badNumber)
  | ds =>
    match accumulate exponentLimit 0 ds with
    | (n, []) =>
      let sum := if negative then start - (n : Int) else start + (n : Int)
      .ok (some (max (-2147483648) (min 2147483647 sum)), past c₁ ds.length)
    | (_, left) =>
      if significand ≠ 0 ∧ negative = false then
        .error ((past c₁ (ds.length - left.length + 1)).here .numberOutOfRange)
      else .ok (none, past c₁ ds.length)

/-- The real number of a decimal that ends at a cursor. -/
def realAt (negative : Bool) (significand : Nat) (exponent : Int) : Take Number := fun c =>
  match Binary.ofDecimal? Format.binary64 negative significand exponent with
  | some x => .ok (.real x, c)
  | none => .error (c.here .numberOutOfRange)

/-- The exponent of a number, if it has one, and its value. -/
def withExponent (negative : Bool) (significand : Nat) (start : Int) : Take Number := fun c =>
  match c.rest with
  | e :: _ =>
    if e = 'e' ∨ e = 'E' then do
      let (sum, c') ← exponent significand start c.next
      match sum with
      | some sum => realAt negative significand sum c'
      | none => .ok (.real (.finite negative 0 Format.binary64.least), c')
    else realAt negative significand start c
  | [] => realAt negative significand start c

/-- The number of an integer. -/
def wholeNumber (negative : Bool) (n : Nat) : Number :=
  if negative = false then .natural n
  else if 1 ≤ n ∧ n ≤ 9223372036854775808 then .negative n
  else .real (Binary.round Format.binary64 true n 1)

/-- A number, behind its minus sign if it has one. -/
def number (negative : Bool) : Take Number := fun c => do
  let (whole, c₁) ← wholeDigits c
  let (significand, left) := accumulate significandLimit 0 whole
  let start : Int := left.length
  match c₁.rest with
  | '.' :: _ => do
    let (ds, c₂) ← fractionDigits c₁.next
    let (significand, left) := accumulate significandLimit significand ds
    withExponent negative significand (start - ((ds.length - left.length : Nat) : Int)) c₂
  | e :: _ =>
    if e = 'e' ∨ e = 'E' then withExponent negative significand start c₁
    else if left = [] then .ok (wholeNumber negative significand, c₁)
    else realAt negative significand start c₁
  | [] =>
    if left = [] then .ok (wholeNumber negative significand, c₁)
    else realAt negative significand start c₁

/-! ## Numbers that are skipped -/

def skipExponent : Take Unit := fun c =>
  let c₁ := (signOf c).2
  match digitsOf c₁ with
  | [] => .error (c₁.faultAhead .badNumber)
  | ds => .ok ((), past c₁ ds.length)

def skipFraction : Take Unit := fun c =>
  match digitsOf c with
  | [] => .error (c.faultAhead .badNumber)
  | ds =>
    let c₁ := past c ds.length
    match c₁.rest with
    | e :: _ => if e = 'e' ∨ e = 'E' then skipExponent c₁.next else .ok ((), c₁)
    | [] => .ok ((), c₁)

/-- Past a number, behind its minus sign if it has one. -/
def skip : Take Unit := fun c =>
  match digitsOf c with
  | [] => .error (c.faultAhead .badNumber)
  | d :: ds =>
    if d = '0' ∧ ds ≠ [] then .error (c.next.faultAhead .badNumber)
    else
      let c₁ := past c (ds.length + 1)
      match c₁.rest with
      | '.' :: _ => skipFraction c₁.next
      | e :: _ => if e = 'e' ∨ e = 'E' then skipExponent c₁.next else .ok ((), c₁)
      | [] => .ok ((), c₁)

/-! ## Numbers consume digits -/

theorem length_past_lt {c : Cursor} {d : Char} {ds : List Char} (h : digitsOf c = d :: ds) :
    (past c (ds.length + 1)).rest.length < c.rest.length := by
  have hne : c.rest ≠ [] := by
    intro hnil
    simp [digitsOf, hnil] at h
  have := List.length_pos_iff.mpr hne
  simp only [past, List.length_drop]
  omega

theorem length_signOf_le (c : Cursor) : (signOf c).2.rest.length ≤ c.rest.length := by
  unfold signOf
  split
  · exact length_next_le c
  · exact length_next_le c
  · exact Nat.le_refl _

theorem wholeDigits_consumes : wholeDigits.Consumes := by
  intro c ds c' h
  unfold wholeDigits at h
  split at h
  · split at h <;> simp at h
  · next d ds hd =>
    split at h
    · simp at h
    · simp only [Except.ok.injEq, Prod.mk.injEq] at h
      obtain ⟨-, rfl⟩ := h
      exact length_past_lt hd

theorem length_fractionDigits_le {c : Cursor} {ds : List Char} {c' : Cursor}
    (h : fractionDigits c = .ok (ds, c')) : c'.rest.length ≤ c.rest.length := by
  unfold fractionDigits at h
  split at h
  · split at h <;> simp at h
  · simp only [Except.ok.injEq, Prod.mk.injEq] at h
    obtain ⟨-, rfl⟩ := h
    exact length_past_le _ _

theorem length_exponent_le {m : Nat} {start : Int} {c : Cursor} {sum : Option Int} {c' : Cursor}
    (h : exponent m start c = .ok (sum, c')) : c'.rest.length ≤ c.rest.length := by
  unfold exponent at h
  split at h
  next negative c₁ hs =>
  have hle : c₁.rest.length ≤ c.rest.length := by
    have := length_signOf_le c
    rwa [hs] at this
  split at h
  · split at h <;> simp at h
  · split at h
    · simp only [Except.ok.injEq, Prod.mk.injEq] at h
      obtain ⟨-, rfl⟩ := h
      exact Nat.le_trans (length_past_le _ _) hle
    · split at h
      · simp at h
      · simp only [Except.ok.injEq, Prod.mk.injEq] at h
        obtain ⟨-, rfl⟩ := h
        exact Nat.le_trans (length_past_le _ _) hle

theorem length_realAt_le {negative : Bool} {m : Nat} {e : Int} {c : Cursor} {n : Number}
    {c' : Cursor} (h : realAt negative m e c = .ok (n, c')) :
    c'.rest.length ≤ c.rest.length := by
  unfold realAt at h
  split at h
  · simp only [Except.ok.injEq, Prod.mk.injEq] at h
    obtain ⟨-, rfl⟩ := h
    exact Nat.le_refl _
  · simp at h

theorem length_withExponent_le {negative : Bool} {m : Nat} {start : Int} {c : Cursor}
    {n : Number} {c' : Cursor} (h : withExponent negative m start c = .ok (n, c')) :
    c'.rest.length ≤ c.rest.length := by
  unfold withExponent at h
  split at h
  · split at h
    · obtain ⟨⟨sum, c₁⟩, h₁, h₂⟩ := bind_eq_ok.mp h
      have hle := Nat.le_trans (length_exponent_le h₁) (length_next_le _)
      simp only at h₂
      split at h₂
      · exact Nat.le_trans (length_realAt_le h₂) hle
      · simp only [Except.ok.injEq, Prod.mk.injEq] at h₂
        obtain ⟨-, rfl⟩ := h₂
        exact hle
    · exact length_realAt_le h
  · exact length_realAt_le h

theorem number_consumes (negative : Bool) : (number negative).Consumes := by
  intro c n c' h
  obtain ⟨⟨whole, c₁⟩, h₁, h₂⟩ := bind_eq_ok.mp h
  have hlt := wholeDigits_consumes h₁
  refine Nat.lt_of_le_of_lt ?_ hlt
  simp only at h₂
  split at h₂
  · obtain ⟨⟨ds, c₂⟩, h₃, h₄⟩ := bind_eq_ok.mp h₂
    exact Nat.le_trans (length_withExponent_le h₄)
      (Nat.le_trans (length_fractionDigits_le h₃) (length_next_le _))
  · split at h₂
    · exact length_withExponent_le h₂
    · split at h₂
      · simp only [Except.ok.injEq, Prod.mk.injEq] at h₂
        exact Nat.le_of_eq (by rw [h₂.2])
      · exact length_realAt_le h₂
  · split at h₂
    · simp only [Except.ok.injEq, Prod.mk.injEq] at h₂
      exact Nat.le_of_eq (by rw [h₂.2])
    · exact length_realAt_le h₂

theorem length_skipExponent_le {c : Cursor} {u : Unit} {c' : Cursor}
    (h : skipExponent c = .ok (u, c')) : c'.rest.length ≤ c.rest.length := by
  unfold skipExponent at h
  simp only at h
  split at h
  · simp at h
  · simp only [Except.ok.injEq, Prod.mk.injEq] at h
    obtain ⟨-, rfl⟩ := h
    exact Nat.le_trans (length_past_le _ _) (length_signOf_le c)

theorem length_skipFraction_le {c : Cursor} {u : Unit} {c' : Cursor}
    (h : skipFraction c = .ok (u, c')) : c'.rest.length ≤ c.rest.length := by
  unfold skipFraction at h
  split at h
  · simp at h
  · simp only at h
    split at h
    · split at h
      · exact Nat.le_trans (length_skipExponent_le h)
          (Nat.le_trans (length_next_le _) (length_past_le _ _))
      · simp only [Except.ok.injEq, Prod.mk.injEq] at h
        obtain ⟨-, rfl⟩ := h
        exact length_past_le _ _
    · simp only [Except.ok.injEq, Prod.mk.injEq] at h
      obtain ⟨-, rfl⟩ := h
      exact length_past_le _ _

theorem skip_consumes : skip.Consumes := by
  intro c u c' h
  unfold skip at h
  split at h
  · simp at h
  · next d ds hd =>
    have hlt := length_past_lt hd
    split at h
    · simp at h
    · simp only at h
      split at h
      · exact Nat.lt_of_le_of_lt
          (Nat.le_trans (length_skipFraction_le h) (length_next_le _)) hlt
      · split at h
        · exact Nat.lt_of_le_of_lt
            (Nat.le_trans (length_skipExponent_le h) (length_next_le _)) hlt
        · simp only [Except.ok.injEq, Prod.mk.injEq] at h
          obtain ⟨-, rfl⟩ := h
          exact hlt
      · simp only [Except.ok.injEq, Prod.mk.injEq] at h
        obtain ⟨-, rfl⟩ := h
        exact hlt

end Reveille.Json.Numeral
