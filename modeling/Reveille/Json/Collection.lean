import Reveille.Json.Literal

/-!
# JSON arrays and objects

The loops over the elements of an array and the members of an object. `nextElement` and
`nextKey` take one step : past the comma, and the element or the key behind it, or nothing
where the closing bracket stands. `elements` collects an array with one reader for every
element. `members` folds over an object : the reader of a member depends on its key and on
what has been read so far, and a key can be refused before its value is looked at; the
refusal is placed behind the blanks after the key, and behind the bracket if it closes
there.
-/

namespace Reveille.Json

open Cursor

/-! ## Steps -/

/-- The next element, none where the array is closed. -/
def nextElement {α : Type} (r : Reader α) (first : Bool) : Take (Option α) := fun c =>
  let b := c.blanks
  match b.rest with
  | [] => .error (b.here .endInArray)
  | ch :: _ =>
    if ch = ']' then .ok (none, b)
    else if first then (r.run b).map fun (a, c') => (some a, c')
    else if ch = ',' then
      let d := b.next.blanks
      match d.rest with
      | [] => .error (d.here .endInValue)
      | e :: _ =>
        if e = ']' then .error (d.faultAhead .trailingComma)
        else (r.run d).map fun (a, c') => (some a, c')
    else .error (b.faultAhead .noArrayEnd)

/-- The key whose opening quotation mark stands at the cursor. -/
def key : Take String := fun c => do
  let (cs, c') ← Literal.string c.next
  .ok (String.ofList cs, c')

/-- The next key, none where the object is closed. -/
def nextKey (first : Bool) : Take (Option String) := fun c =>
  let b := c.blanks
  match b.rest with
  | [] => .error (b.here .endInObject)
  | ch :: _ =>
    if ch = '\x7d' then .ok (none, b)
    else if first then
      if ch = '"' then (key b).map fun (k, c') => (some k, c')
      else .error (b.faultAhead .keyNotString)
    else if ch = ',' then
      let d := b.next.blanks
      match d.rest with
      | [] => .error (d.here .endInValue)
      | e :: _ =>
        if e = '"' then (key d).map fun (k, c') => (some k, c')
        else if e = '\x7d' then .error (d.faultAhead .trailingComma)
        else .error (d.faultAhead .keyNotString)
    else .error (b.faultAhead .noObjectEnd)

/-- Past the colon between key and value. -/
def colon : Take Unit := fun c =>
  let b := c.blanks
  match b.rest with
  | [] => .error (b.here .endInObject)
  | ch :: _ => if ch = ':' then .ok ((), b.next) else .error (b.faultAhead .noColon)

theorem map_eq_ok {ε α β : Type} {f : α → β} {x : Except ε α} {b : β} :
    x.map f = .ok b ↔ ∃ a, x = .ok a ∧ f a = b := by
  cases x <;> simp [Except.map]

theorem mapError_eq_ok {ε ε' α : Type} {f : ε → ε'} {x : Except ε α} {a : α} :
    x.mapError f = .ok a ↔ x = .ok a := by
  cases x with
  | error e => exact ⟨nofun, nofun⟩
  | ok b =>
    constructor <;> intro h <;> cases h <;> rfl

theorem nextElement_consumes {α : Type} {r : Reader α} {first : Bool} {c : Cursor} {a : α}
    {c' : Cursor} (h : nextElement r first c = .ok (some a, c')) :
    c'.rest.length < c.rest.length := by
  have hb := c.length_blanks_le
  unfold nextElement at h
  simp only at h
  split at h
  · simp at h
  · split at h
    · simp at h
    · split at h
      · obtain ⟨⟨a₁, c₁⟩, h₁, h₂⟩ := map_eq_ok.mp h
        simp only [Prod.mk.injEq] at h₂
        obtain ⟨-, rfl⟩ := h₂
        exact Nat.lt_of_lt_of_le (r.consumes h₁) hb
      · split at h
        · split at h
          · simp at h
          · split at h
            · simp at h
            · obtain ⟨⟨a₁, c₁⟩, h₁, h₂⟩ := map_eq_ok.mp h
              simp only [Prod.mk.injEq] at h₂
              obtain ⟨-, rfl⟩ := h₂
              have h₃ := c.blanks.next.length_blanks_le
              have h₄ := length_next_le c.blanks
              have h₅ := r.consumes h₁
              omega
        · simp at h

theorem length_nextElement_le {α : Type} {r : Reader α} {first : Bool} {c : Cursor}
    {o : Option α} {c' : Cursor} (h : nextElement r first c = .ok (o, c')) :
    c'.rest.length ≤ c.rest.length := by
  cases o with
  | some a => exact Nat.le_of_lt (nextElement_consumes h)
  | none =>
    unfold nextElement at h
    simp only at h
    split at h
    · simp at h
    · split at h
      · simp only [Except.ok.injEq, Prod.mk.injEq, true_and] at h
        exact h ▸ c.length_blanks_le
      · split at h
        · obtain ⟨_, _, h₂⟩ := map_eq_ok.mp h
          simp at h₂
        · split at h
          · split at h
            · simp at h
            · split at h
              · simp at h
              · obtain ⟨_, _, h₂⟩ := map_eq_ok.mp h
                simp at h₂
          · simp at h

theorem key_consumes : key.Consumes := by
  intro c k c' h
  obtain ⟨⟨cs, c₁⟩, h₁, h₂⟩ := bind_eq_ok.mp h
  simp only [Except.ok.injEq, Prod.mk.injEq] at h₂
  obtain ⟨-, rfl⟩ := h₂
  exact Nat.lt_of_lt_of_le (Literal.string_consumes h₁) (length_next_le c)

theorem nextKey_consumes {first : Bool} {c : Cursor} {k : String} {c' : Cursor}
    (h : nextKey first c = .ok (some k, c')) : c'.rest.length < c.rest.length := by
  have hb := c.length_blanks_le
  unfold nextKey at h
  simp only at h
  split at h
  · simp at h
  · split at h
    · simp at h
    · split at h
      · split at h
        · obtain ⟨⟨k₁, c₁⟩, h₁, h₂⟩ := map_eq_ok.mp h
          simp only [Prod.mk.injEq] at h₂
          obtain ⟨-, rfl⟩ := h₂
          exact Nat.lt_of_lt_of_le (key_consumes h₁) hb
        · simp at h
      · split at h
        · split at h
          · simp at h
          · split at h
            · obtain ⟨⟨k₁, c₁⟩, h₁, h₂⟩ := map_eq_ok.mp h
              simp only [Prod.mk.injEq] at h₂
              obtain ⟨-, rfl⟩ := h₂
              have h₃ := c.blanks.next.length_blanks_le
              have h₄ := length_next_le c.blanks
              have h₅ := key_consumes h₁
              omega
            · split at h <;> simp at h
        · simp at h

theorem length_nextKey_le {first : Bool} {c c' : Cursor}
    (h : nextKey first c = .ok (none, c')) : c'.rest.length ≤ c.rest.length := by
  unfold nextKey at h
  simp only at h
  split at h
  · simp at h
  · split at h
    · simp only [Except.ok.injEq, Prod.mk.injEq, true_and] at h
      exact h ▸ c.length_blanks_le
    · split at h
      · split at h
        · obtain ⟨_, _, h₂⟩ := map_eq_ok.mp h
          simp at h₂
        · simp at h
      · split at h
        · split at h
          · simp at h
          · split at h
            · obtain ⟨_, _, h₂⟩ := map_eq_ok.mp h
              simp at h₂
            · split at h <;> simp at h
        · simp at h

theorem length_colon_le {c : Cursor} {u : Unit} {c' : Cursor} (h : colon c = .ok (u, c')) :
    c'.rest.length ≤ c.rest.length := by
  unfold colon at h
  simp only at h
  split at h
  · simp at h
  · split at h
    · simp only [Except.ok.injEq, Prod.mk.injEq, true_and] at h
      exact h ▸ Nat.le_trans (length_next_le _) c.length_blanks_le
    · simp at h

/-! ## Arrays -/

/-- The elements of an array up to its closing bracket. -/
def elements {α : Type} (r : Reader α) (first : Bool) : Take (List α) := fun c =>
  match _h : nextElement r first c with
  | .error fault => .error fault
  | .ok (none, c') => .ok ([], c'.next)
  | .ok (some a, c') =>
    match elements r false c' with
    | .error fault => .error fault
    | .ok (as, c'') => .ok (a :: as, c'')
termination_by c => c.rest.length
decreasing_by exact nextElement_consumes _h

theorem length_elements_le {α : Type} {r : Reader α} {first : Bool} {c : Cursor} {as : List α}
    {c' : Cursor} (h : elements r first c = .ok (as, c')) :
    c'.rest.length ≤ c.rest.length := by
  fun_induction elements r first c generalizing as c' with
  | case1 first c fault _ => simp at h
  | case2 first c c₁ h₁ =>
    simp only [Except.ok.injEq, Prod.mk.injEq] at h
    obtain ⟨-, rfl⟩ := h
    exact Nat.le_trans (length_next_le _) (length_nextElement_le h₁)
  | case3 first c a c₁ h₁ fault _ => simp at h
  | case4 first c a c₁ h₁ bs c₂ h₂ ih =>
    simp only [Except.ok.injEq, Prod.mk.injEq] at h
    obtain ⟨-, rfl⟩ := h
    exact Nat.le_trans (ih h₂) (Nat.le_of_lt (nextElement_consumes h₁))

/-! ## Objects -/

/-- The cursor past blanks and, if it stands there, a closing curly bracket. -/
def pastObjectEnd (c : Cursor) : Cursor :=
  if c.blanks.rest.head? = some '\x7d' then c.blanks.next else c.blanks

/-- The cursor past blanks and, if it stands there, a closing square bracket. -/
def pastArrayEnd (c : Cursor) : Cursor :=
  if c.blanks.rest.head? = some ']' then c.blanks.next else c.blanks

/-- The fold over the members of an object up to its closing bracket. -/
def members {σ : Type} (step : String → σ → Except Problem (Reader σ)) (first : Bool)
    (s : σ) : Take σ := fun c =>
  match _h : nextKey first c with
  | .error fault => .error fault
  | .ok (none, c') => .ok (s, c'.next)
  | .ok (some k, c') =>
    match step k s with
    | .error problem => .error ((pastObjectEnd c').here problem)
    | .ok r =>
      match _h₁ : colon c' with
      | .error fault => .error fault
      | .ok ((), c₁) =>
        match _h₂ : r.run c₁ with
        | .error fault => .error fault
        | .ok (s', c₂) => members step false s' c₂
termination_by c => c.rest.length
decreasing_by
  have h₃ := nextKey_consumes _h
  have h₄ := length_colon_le _h₁
  have h₅ := r.consumes _h₂
  omega

theorem length_members_le {σ : Type} {step : String → σ → Except Problem (Reader σ)}
    {first : Bool} {s : σ} {c : Cursor} {t : σ} {c' : Cursor}
    (h : members step first s c = .ok (t, c')) : c'.rest.length ≤ c.rest.length := by
  fun_induction members step first s c with
  | case1 => simp at h
  | case2 first s c c₁ h₁ =>
    simp only [Except.ok.injEq, Prod.mk.injEq] at h
    obtain ⟨-, rfl⟩ := h
    exact Nat.le_trans (length_next_le _) (length_nextKey_le h₁)
  | case3 => simp at h
  | case4 => simp at h
  | case5 => simp at h
  | case6 first s c k c₁ h₁ r _ c₂ h₂ s₁ c₃ h₃ ih =>
    have h₄ := ih h
    have h₅ := nextKey_consumes h₁
    have h₆ := length_colon_le h₂
    have h₇ := r.consumes h₃
    omega

/-! ## Readers of a whole array or object -/

namespace Reader

variable {α : Type}

/-- A reader for what stands behind the first character. -/
def behind (t : Take α)
    (ht : ∀ {c : Cursor} {a : α} {c' : Cursor}, t c = .ok (a, c') →
      c'.rest.length ≤ c.rest.length) : Reader α where
  run c :=
    match c.rest with
    | [] => .error (c.here .endInValue)
    | _ :: _ => t c.next
  consumes := by
    intro c a c' h
    dsimp only at h
    split at h
    · simp at h
    · next ch cs hc => exact Nat.lt_of_le_of_lt (ht h) (length_next_of_cons hc)

/-- An array whose bracket stands at the cursor. -/
def array (r : Reader α) : Reader (List α) := behind (elements r true) length_elements_le

/-- An object whose bracket stands at the cursor. -/
def object (step : String → α → Except Problem (Reader α)) (s : α) : Reader α :=
  behind (members step true s) length_members_le

end Reader

end Reveille.Json
