import Reveille.Json.Cursor

/-!
# JSON strings and words

Strings are taken in two ways : read for their value (`Literal.string`), or skipped where the
value is not wanted (`Literal.skipString`). Skipping checks the form only, so it lets pass
surrogate escapes that are not paired, and it notices a control character one byte earlier.
-/

namespace Reveille.Json.Literal

open Text Cursor

/-! ## Strings -/

/-- The value of a hexadecimal digit. -/
def hexValue? (c : Char) : Option Nat :=
  if '0' ≤ c ∧ c ≤ '9' then some (c.toNat - 48)
  else if 'a' ≤ c ∧ c ≤ 'f' then some (c.toNat - 87)
  else if 'A' ≤ c ∧ c ≤ 'F' then some (c.toNat - 55)
  else none

/-- The number of bytes of a text. -/
def byteCount : List Char → Nat
  | [] => 0
  | c :: cs => c.utf8Size + byteCount cs

/-- The four hexadecimal digits of an escape. -/
def fourHex : Take Nat := fun c =>
  match c.rest with
  | w :: x :: y :: z :: _ =>
    match hexValue? w, hexValue? x, hexValue? y, hexValue? z with
    | some p, some q, some r, some s =>
      .ok (((p * 16 + q) * 16 + r) * 16 + s, c.next.next.next.next)
    | _, _, _, _ => .error ⟨.badEscape, c.aheadBy 4⟩
  | cs =>
    if 4 ≤ byteCount cs then .error ⟨.badEscape, c.aheadBy 4⟩
    else .error ⟨.endInString, c.aheadBy 4⟩

/-- The second half of a surrogate pair, whose first half is `high`. -/
def surrogatePair (high : Nat) : Take Char := fun c =>
  match c.rest with
  | [] => .error (c.here .endInString)
  | '\\' :: _ =>
    match c.next.rest with
    | [] => .error (c.next.here .endInString)
    | 'u' :: _ => do
      let (low, c') ← fourHex c.next.next
      if 0xDC00 ≤ low ∧ low ≤ 0xDFFF then
        .ok (Char.ofNat ((high - 0xD800) * 0x400 + (low - 0xDC00) + 0x10000), c')
      else .error (c'.here .loneSurrogate)
    | _ => .error (c.next.faultAhead .halfSurrogatePair)
  | _ => .error (c.faultAhead .halfSurrogatePair)

/-- The character of a `\u` escape. -/
def unicodeEscape : Take Char := fun c => do
  let (n, c') ← fourHex c
  if 0xDC00 ≤ n ∧ n ≤ 0xDFFF then .error (c'.here .loneSurrogate)
  else if 0xD800 ≤ n ∧ n ≤ 0xDBFF then surrogatePair n c'
  else .ok (Char.ofNat n, c')

/-- The character named by one letter behind a backslash. -/
def shortEscape? (ch : Char) : Option Char :=
  if ch = '"' ∨ ch = '\\' ∨ ch = '/' then some ch
  else if ch = 'b' then some '\x08'
  else if ch = 'f' then some '\x0c'
  else if ch = 'n' then some '\n'
  else if ch = 'r' then some '\r'
  else if ch = 't' then some '\t'
  else none

/-- The character of an escape, behind its backslash. -/
def escape : Take Char := fun c =>
  match c.rest with
  | [] => .error (c.here .endInString)
  | ch :: _ =>
    if ch = 'u' then unicodeEscape c.next
    else
      match shortEscape? ch with
      | some d => .ok (d, c.next)
      | none => .error (c.faultAhead .badEscape)

/-- The next character of a string, none at the closing quotation mark. -/
def stringChar : Take (Option Char) := fun c =>
  match c.rest with
  | [] => .error (c.here .endInString)
  | ch :: _ =>
    if ch = '"' then .ok (none, c.next)
    else if ch = '\\' then do
      let (d, c') ← escape c.next
      .ok (some d, c')
    else if ch.toNat < 0x20 then .error (c.faultAhead .controlCharacter)
    else .ok (some ch, c.next)

/-- The next character of a string that is skipped, true at the closing quotation mark. -/
def skipChar : Take Bool := fun c =>
  match c.rest with
  | [] => .error (c.here .endInString)
  | ch :: _ =>
    if ch = '"' then .ok (true, c.next)
    else if ch = '\\' then
      match c.next.rest with
      | [] => .error (c.next.here .endInString)
      | e :: _ =>
        if e = 'u' then do
          let (_, c') ← fourHex c.next.next
          .ok (false, c')
        else if (shortEscape? e).isSome then .ok (false, c.next.next)
        else .error (c.next.faultAhead .badEscape)
    else if ch.toNat < 0x20 then .error (c.here .controlCharacter)
    else .ok (false, c.next)

theorem length_fourHex_le {c : Cursor} {n : Nat} {c' : Cursor} (h : fourHex c = .ok (n, c')) :
    c'.rest.length ≤ c.rest.length := by
  unfold fourHex at h
  split at h
  · split at h
    · simp only [Except.ok.injEq, Prod.mk.injEq] at h
      obtain ⟨-, rfl⟩ := h
      exact Nat.le_trans (length_next_le _) (Nat.le_trans (length_next_le _)
        (Nat.le_trans (length_next_le _) (length_next_le _)))
    · simp at h
  · split at h <;> simp at h

theorem length_surrogatePair_le {high : Nat} {c : Cursor} {ch : Char} {c' : Cursor}
    (h : surrogatePair high c = .ok (ch, c')) : c'.rest.length ≤ c.rest.length := by
  unfold surrogatePair at h
  split at h
  · simp at h
  · split at h
    · simp at h
    · obtain ⟨⟨low, c₁⟩, h₁, h₂⟩ := bind_eq_ok.mp h
      simp only at h₂
      split at h₂
      · simp only [Except.ok.injEq, Prod.mk.injEq] at h₂
        obtain ⟨-, rfl⟩ := h₂
        exact Nat.le_trans (length_fourHex_le h₁)
          (Nat.le_trans (length_next_le _) (length_next_le _))
      · simp at h₂
    · simp at h
  · simp at h

theorem length_unicodeEscape_le {c : Cursor} {ch : Char} {c' : Cursor}
    (h : unicodeEscape c = .ok (ch, c')) : c'.rest.length ≤ c.rest.length := by
  obtain ⟨⟨n, c₁⟩, h₁, h₂⟩ := bind_eq_ok.mp h
  simp only at h₂
  split at h₂
  · simp at h₂
  · split at h₂
    · exact Nat.le_trans (length_surrogatePair_le h₂) (length_fourHex_le h₁)
    · simp only [Except.ok.injEq, Prod.mk.injEq] at h₂
      obtain ⟨-, rfl⟩ := h₂
      exact length_fourHex_le h₁

theorem length_escape_le {c : Cursor} {ch : Char} {c' : Cursor}
    (h : escape c = .ok (ch, c')) : c'.rest.length ≤ c.rest.length := by
  unfold escape at h
  split at h
  · simp at h
  · split at h
    · exact Nat.le_trans (length_unicodeEscape_le h) (length_next_le _)
    · split at h
      · simp only [Except.ok.injEq, Prod.mk.injEq] at h
        obtain ⟨-, rfl⟩ := h
        exact length_next_le _
      · simp at h

theorem stringChar_consumes : stringChar.Consumes := by
  intro c o c' h
  unfold stringChar at h
  split at h
  · simp at h
  · next ch cs hc =>
    have hlt := length_next_of_cons hc
    split at h
    · simp only [Except.ok.injEq, Prod.mk.injEq] at h
      obtain ⟨-, rfl⟩ := h
      exact hlt
    · split at h
      · obtain ⟨⟨d, c₁⟩, h₁, h₂⟩ := bind_eq_ok.mp h
        simp only [Except.ok.injEq, Prod.mk.injEq] at h₂
        obtain ⟨-, rfl⟩ := h₂
        exact Nat.lt_of_le_of_lt (length_escape_le h₁) hlt
      · split at h
        · simp at h
        · simp only [Except.ok.injEq, Prod.mk.injEq] at h
          obtain ⟨-, rfl⟩ := h
          exact hlt

theorem skipChar_consumes : skipChar.Consumes := by
  intro c o c' h
  unfold skipChar at h
  split at h
  · simp at h
  · next ch cs hc =>
    have hlt := length_next_of_cons hc
    split at h
    · simp only [Except.ok.injEq, Prod.mk.injEq] at h
      obtain ⟨-, rfl⟩ := h
      exact hlt
    · split at h
      · split at h
        · simp at h
        · split at h
          · obtain ⟨⟨d, c₁⟩, h₁, h₂⟩ := bind_eq_ok.mp h
            simp only [Except.ok.injEq, Prod.mk.injEq] at h₂
            obtain ⟨-, rfl⟩ := h₂
            exact Nat.lt_of_le_of_lt (Nat.le_trans (length_fourHex_le h₁) (length_next_le _)) hlt
          · split at h
            · simp only [Except.ok.injEq, Prod.mk.injEq] at h
              obtain ⟨-, rfl⟩ := h
              exact Nat.lt_of_le_of_lt (length_next_le _) hlt
            · simp at h
      · split at h
        · simp at h
        · simp only [Except.ok.injEq, Prod.mk.injEq] at h
          obtain ⟨-, rfl⟩ := h
          exact hlt

/-- The characters of a string up to its closing quotation mark, behind the opening one. -/
def string : Take (List Char) := fun c =>
  match _h : stringChar c with
  | .error fault => .error fault
  | .ok (none, c') => .ok ([], c')
  | .ok (some ch, c') =>
    match string c' with
    | .error fault => .error fault
    | .ok (cs, c'') => .ok (ch :: cs, c'')
termination_by c => c.rest.length
decreasing_by exact stringChar_consumes _h

theorem string_consumes : string.Consumes := by
  intro c cs c' h
  fun_induction string c generalizing cs c' with
  | case1 c fault _ => simp at h
  | case2 c c₁ h₁ =>
    simp only [Except.ok.injEq, Prod.mk.injEq] at h
    obtain ⟨-, rfl⟩ := h
    exact stringChar_consumes h₁
  | case3 c ch c₁ h₁ fault _ => simp at h
  | case4 c ch c₁ h₁ ds c₂ h₂ ih =>
    simp only [Except.ok.injEq, Prod.mk.injEq] at h
    obtain ⟨-, rfl⟩ := h
    exact Nat.lt_trans (ih h₂) (stringChar_consumes h₁)

/-- Past a string, behind its opening quotation mark. -/
def skipString : Take Unit := fun c =>
  match _h : skipChar c with
  | .error fault => .error fault
  | .ok (true, c') => .ok ((), c')
  | .ok (false, c') => skipString c'
termination_by c => c.rest.length
decreasing_by exact skipChar_consumes _h

theorem skipString_consumes : skipString.Consumes := by
  intro c u c' h
  fun_induction skipString c with
  | case1 c fault _ => simp at h
  | case2 c c₁ h₁ =>
    simp only [Except.ok.injEq, Prod.mk.injEq] at h
    obtain ⟨-, rfl⟩ := h
    exact skipChar_consumes h₁
  | case3 c c₁ h₁ ih => exact Nat.lt_trans (ih h) (skipChar_consumes h₁)

/-! ## Words -/

/-- The letters of a word, one after the other. -/
def word : List Char → Take Unit
  | [], c => .ok ((), c)
  | w :: ws, c =>
    match c.rest with
    | [] => .error (c.here .endInValue)
    | ch :: _ => if ch = w then word ws c.next else .error (c.faultAhead .noWord)

theorem length_word_le : ∀ (ws : List Char) {c : Cursor} {u : Unit} {c' : Cursor},
    word ws c = .ok (u, c') → c'.rest.length ≤ c.rest.length
  | [], c, u, c', h => by
    simp only [word, Except.ok.injEq, Prod.mk.injEq] at h
    simp [h.2]
  | w :: ws, c, u, c', h => by
    unfold word at h
    split at h
    · simp at h
    · split at h
      · exact Nat.le_trans (length_word_le ws h) (length_next_le c)
      · simp at h

end Reveille.Json.Literal
