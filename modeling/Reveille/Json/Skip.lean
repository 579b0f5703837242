import Reveille.Json.Collection
import Reveille.Json.Numeral

/-!
# Skipping a JSON value

Past a value whose content is not wanted, at any depth. The open brackets are kept in a
list, and `Skip.step` goes from one scalar, comma or bracket to the next.
-/

namespace Reveille.Json

open Cursor

namespace Skip

/-- An open bracket. -/
inductive Bracket where
  | square
  | curly
  deriving DecidableEq, Repr

def Bracket.closing : Bracket → Char
  | .square => ']'
  | .curly => '\x7d'

/-- The text ends within the brackets. -/
def Bracket.atEnd : Bracket → Problem
  | .square => .endInArray
  | .curly => .endInObject

/-- Neither a comma nor the closing bracket. -/
def Bracket.noEnd : Bracket → Problem
  | .square => .noArrayEnd
  | .curly => .noObjectEnd

/-- What is expected next, within the open brackets. -/
inductive State where
  | value (brackets : List Bracket)
  | inside (bracket : Bracket) (outer : List Bracket) (first : Bool)

/-- After a value : nothing more, or the rest of the innermost bracket. -/
def leave : List Bracket → Option State
  | [] => none
  | b :: outer => some (.inside b outer false)

/-- The state after a scalar. -/
def scalar (brackets : List Bracket) (x : Except Fault (Unit × Cursor)) :
    Except Fault (Option State × Cursor) :=
  x.map fun (_, c) => (leave brackets, c)

/-- Past a scalar or an opening bracket, where no blanks are left. -/
def enter (brackets : List Bracket) : Take (Option State) := fun c =>
  match c.rest with
  | [] => .error (c.here .endInValue)
  | ch :: _ =>
    if ch = 'n' then scalar brackets (Literal.word ['u', 'l', 'l'] c.next)
    else if ch = 't' then scalar brackets (Literal.word ['r', 'u', 'e'] c.next)
    else if ch = 'f' then scalar brackets (Literal.word ['a', 'l', 's', 'e'] c.next)
    else if ch = '-' then scalar brackets (Numeral.skip c.next)
    else if Text.isDigit ch then scalar brackets (Numeral.skip c)
    else if ch = '"' then scalar brackets (Literal.skipString c.next)
    else if ch = '[' then .ok (some (.inside .square brackets true), c.next)
    else if ch = '\x7b' then .ok (some (.inside .curly brackets true), c.next)
    else .error (c.faultAhead .noValue)

/-- Past a key and its colon. -/
def key : Take Unit := fun c =>
  let b := c.blanks
  match b.rest with
  | [] => .error (b.here .endInObject)
  | ch :: _ =>
    if ch = '"' then do
      let (_, c') ← Literal.skipString b.next
      colon c'
    else .error (b.faultAhead .keyNotString)

/-- Past the next value of a bracket, with its key in a curly one. -/
def item (bracket : Bracket) (outer : List Bracket) : Take (Option State) := fun c =>
  match bracket with
  | .square => enter (.square :: outer) c.blanks
  | .curly => do
    let (_, c') ← key c
    enter (.curly :: outer) c'.blanks

/-- One step. -/
def step : State → Take (Option State)
  | .value brackets, c => enter brackets c.blanks
  | .inside bracket outer first, c =>
    let b := c.blanks
    match b.rest with
    | [] => .error (b.here bracket.atEnd)
    | ch :: _ =>
      if ch = bracket.closing then .ok (leave outer, b.next)
      else if first then item bracket outer b
      else if ch = ',' then item bracket outer b.next
      else .error (b.faultAhead bracket.noEnd)

theorem scalar_eq_ok {brackets : List Bracket} {x : Except Fault (Unit × Cursor)}
    {o : Option State} {c : Cursor} (h : scalar brackets x = .ok (o, c)) : x = .ok ((), c) := by
  obtain ⟨⟨u, c₁⟩, h₁, h₂⟩ := map_eq_ok.mp h
  simp only [Prod.mk.injEq] at h₂
  rw [h₁, h₂.2]

theorem enter_consumes (brackets : List Bracket) : (enter brackets).Consumes := by
  intro c o c' h
  unfold enter at h
  split at h
  · simp at h
  · next ch cs hc =>
    have hlt := length_next_of_cons hc
    split at h
    · exact Nat.lt_of_le_of_lt (Literal.length_word_le _ (scalar_eq_ok h)) hlt
    · split at h
      · exact Nat.lt_of_le_of_lt (Literal.length_word_le _ (scalar_eq_ok h)) hlt
      · split at h
        · exact Nat.lt_of_le_of_lt (Literal.length_word_le _ (scalar_eq_ok h)) hlt
        · split at h
          · exact Nat.lt_trans (Numeral.skip_consumes (scalar_eq_ok h)) hlt
          · split at h
            · exact Numeral.skip_consumes (scalar_eq_ok h)
            · split at h
              · exact Nat.lt_trans (Literal.skipString_consumes (scalar_eq_ok h)) hlt
              · split at h
                · simp only [Except.ok.injEq, Prod.mk.injEq] at h
                  exact h.2 ▸ hlt
                · split at h
                  · simp only [Except.ok.injEq, Prod.mk.injEq] at h
                    exact h.2 ▸ hlt
                  · simp at h

theorem length_key_le {c : Cursor} {u : Unit} {c' : Cursor} (h : key c = .ok (u, c')) :
    c'.rest.length ≤ c.rest.length := by
  unfold key at h
  simp only at h
  split at h
  · simp at h
  · split at h
    · obtain ⟨⟨v, c₁⟩, h₁, h₂⟩ := bind_eq_ok.mp h
      have h₃ : c'.rest.length ≤ c₁.rest.length := length_colon_le h₂
      have h₄ := Literal.skipString_consumes h₁
      have h₅ := length_next_le c.blanks
      have h₆ := c.length_blanks_le
      omega
    · simp at h

theorem item_consumes (bracket : Bracket) (outer : List Bracket) :
    (item bracket outer).Consumes := by
  intro c o c' h
  cases bracket with
  | square => exact Nat.lt_of_lt_of_le (enter_consumes _ h) c.length_blanks_le
  | curly =>
    obtain ⟨⟨u, c₁⟩, h₁, h₂⟩ := bind_eq_ok.mp h
    have h₃ := length_key_le h₁
    have h₄ : c'.rest.length < c₁.blanks.rest.length := enter_consumes _ h₂
    have h₅ := c₁.length_blanks_le
    omega

theorem step_consumes (s : State) : (step s).Consumes := by
  intro c o c' h
  cases s with
  | value brackets => exact Nat.lt_of_lt_of_le (enter_consumes _ h) c.length_blanks_le
  | inside bracket outer first =>
    have hb := c.length_blanks_le
    simp only [step] at h
    split at h
    · simp at h
    · next ch cs hc =>
      have hlt := length_next_of_cons hc
      split at h
      · simp only [Except.ok.injEq, Prod.mk.injEq] at h
        exact Nat.lt_of_lt_of_le (h.2 ▸ hlt) hb
      · split at h
        · exact Nat.lt_of_lt_of_le (item_consumes _ _ h) hb
        · split at h
          · have := item_consumes _ _ h
            omega
          · simp at h

/-- The steps to the end of the value. -/
def run (s : State) : Take Unit := fun c =>
  match _h : step s c with
  | .error fault => .error fault
  | .ok (none, c') => .ok ((), c')
  | .ok (some s', c') => run s' c'
termination_by c => c.rest.length
decreasing_by exact step_consumes s _h

theorem run_consumes (s : State) : (run s).Consumes := by
  intro c u c' h
  fun_induction run s c with
  | case1 => simp at h
  | case2 s c c₁ h₁ =>
    simp only [Except.ok.injEq, Prod.mk.injEq] at h
    exact h.2 ▸ step_consumes s h₁
  | case3 s c s₁ c₁ h₁ ih => exact Nat.lt_trans (ih h) (step_consumes s h₁)

end Skip

/-- Past a value. -/
def Reader.skip : Reader Unit := ⟨Skip.run (.value []), Skip.run_consumes _⟩

end Reveille.Json
