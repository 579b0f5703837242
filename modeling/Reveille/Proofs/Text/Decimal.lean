import Reveille.Number.Power
import Reveille.Text.Blank
import Reveille.Text.Decimal

/-!
# Decimal digits read back

The number that a run of digits denotes is their `decimal`. The digits of a number denote it, with
or without zeros in front (`decimal_digits`, `decimal_padded`). Reading digits up to a limit yields
what they denote (`readDigitsUpTo_eq_ok`), and a text is read as a number exactly if it denotes that
number (`IsNumber`) and the number is within the limit (`readNatural_eq_ok_iff`). Where a mark
follows that is no digit, a field is told from the rest of its text, and its number from every other
(`padded_append_inj`, `paddedInt_append_inj`).
-/

namespace Reveille.Text

variable {n acc limit width : Nat} {c : Char} {ds rest : List Char}

/-! ## Digits -/

/-- The characters are digits. -/
def AreDigits (ds : List Char) : Prop := ∀ c ∈ ds, isDigit c = true

/-- The number denoted by `acc` followed by digits. -/
def decimal (acc : Nat) (ds : List Char) : Nat := ds.foldl (fun n c => n * 10 + (c.toNat - 48)) acc

theorem toNat_ofNat (h : n < 0xD800) : (Char.ofNat n).toNat = n := by
  unfold Char.ofNat
  rw [dif_pos (.inl h)]
  rfl

theorem toNat_digitChar (n : Nat) : (digitChar n).toNat = 48 + n % 10 :=
  toNat_ofNat (by omega)

theorem digitValue?_eq_some (h : isDigit c = true) : digitValue? c = some (c.toNat - 48) := by
  unfold isDigit at h
  unfold digitValue? at h ⊢
  split
  · rfl
  · next hc =>
    rw [if_neg hc] at h
    cases h

theorem isDigit_iff : isDigit c = true ↔ 48 ≤ c.toNat ∧ c.toNat ≤ 57 := by
  unfold isDigit digitValue?
  have hle : ('0' ≤ c ∧ c ≤ '9') ↔ 48 ≤ c.toNat ∧ c.toNat ≤ 57 := Iff.rfl
  by_cases h : '0' ≤ c ∧ c ≤ '9'
  · rw [if_pos h]
    simpa using hle.mp h
  · rw [if_neg h]
    simpa using fun h1 h2 => h (hle.mpr ⟨h1, h2⟩)

theorem isDigit_digitChar (n : Nat) : isDigit (digitChar n) = true := by
  rw [isDigit_iff, toNat_digitChar]
  omega

theorem not_isBlank_of_isDigit (h : isDigit c = true) : isBlank c = false := by
  rw [isDigit_iff] at h
  unfold isBlank
  simp only [Bool.or_eq_false_iff, Bool.and_eq_false_iff, decide_eq_false_iff_not]
  omega

/-! ## The digits of a number -/

theorem digits_induction {motive : Nat → Prop} (small : ∀ n < 10, motive n)
    (step : ∀ n, 10 ≤ n → motive (n / 10) → motive n) (n : Nat) : motive n := by
  induction n using Nat.strongRecOn with
  | _ n ih =>
    by_cases h : n < 10
    · exact small n h
    · exact step n (by omega) (ih (n / 10) (by omega))

theorem digits_of_lt (h : n < 10) : digits n = [digitChar n] := by
  rw [digits, if_pos h]

theorem digits_of_le (h : 10 ≤ n) : digits n = digits (n / 10) ++ [digitChar n] := by
  rw [digits, if_neg (by omega)]

theorem areDigits_append : AreDigits (ds ++ rest) ↔ AreDigits ds ∧ AreDigits rest :=
  List.forall_mem_append

theorem areDigits_digits (n : Nat) : AreDigits (digits n) := by
  have hlast : ∀ n, AreDigits [digitChar n] := fun n => by
    simpa [AreDigits] using isDigit_digitChar n
  induction n using digits_induction with
  | small n h => exact digits_of_lt h ▸ hlast n
  | step n h ih => exact digits_of_le h ▸ areDigits_append.mpr ⟨ih, hlast n⟩

theorem decimal_append (acc : Nat) (ds rest : List Char) :
    decimal acc (ds ++ rest) = decimal (decimal acc ds) rest :=
  List.foldl_append

theorem decimal_digits (n : Nat) : decimal 0 (digits n) = n := by
  have hlast : ∀ acc n, decimal acc [digitChar n] = acc * 10 + n % 10 := fun acc n => by
    simp [decimal, toNat_digitChar]
  induction n using digits_induction with
  | small n h =>
    rw [digits_of_lt h, hlast]
    omega
  | step n h ih =>
    rw [digits_of_le h, decimal_append, ih, hlast]
    omega

theorem digits_ne_nil (n : Nat) : digits n ≠ [] := by
  induction n using digits_induction with
  | small n h => simp [digits_of_lt h]
  | step n h ih => simp [digits_of_le h]

theorem length_digits_le : ∀ (width : Nat) {n : Nat}, 0 < width → n < tenPow width →
    (digits n).length ≤ width
  | 0, _, h, _ => by cases h
  | width + 1, n, _, h => by
    by_cases hlt : n < 10
    · simp [digits_of_lt hlt]
    · have hpos : 0 < width := by
        rcases Nat.eq_zero_or_pos width with rfl | hpos
        · exact absurd h hlt
        · exact hpos
      rw [digits_of_le (by omega), List.length_append, List.length_singleton]
      rw [tenPow_succ] at h
      have := length_digits_le width hpos (n := n / 10) (by omega)
      omega

/-! ## Zeros in front -/

theorem areDigits_padded (width n : Nat) : AreDigits (padded width n) := by
  refine areDigits_append.mpr ⟨fun c hc => ?_, areDigits_digits n⟩
  rw [List.eq_of_mem_replicate hc]
  decide

theorem decimal_padded (width n : Nat) : decimal 0 (padded width n) = n := by
  have hzeros : ∀ k, decimal 0 (List.replicate k '0') = 0 := by
    intro k
    induction k with
    | zero => rfl
    | succ k ih => exact ih
  unfold padded
  dsimp only
  rw [decimal_append, hzeros, decimal_digits]

theorem length_padded (hwidth : 0 < width) (h : n < tenPow width) :
    (padded width n).length = width := by
  have := length_digits_le width hwidth h
  unfold padded
  dsimp only
  rw [List.length_append, List.length_replicate]
  omega

theorem padded_ne_nil (width n : Nat) : padded width n ≠ [] :=
  List.append_ne_nil_of_right_ne_nil _ (digits_ne_nil n)

/-! ## Reading -/

theorem le_decimal (acc : Nat) (ds : List Char) : acc ≤ decimal acc ds := by
  induction ds generalizing acc with
  | nil => exact Nat.le_refl acc
  | cons c ds ih => exact Nat.le_trans (by omega) (ih (acc * 10 + (c.toNat - 48)))

/-- Digits that denote a number within the limit are read. -/
theorem readDigitsUpTo_eq_ok (hds : AreDigits ds) (h : decimal acc ds ≤ limit) :
    readDigitsUpTo limit acc ds = .ok (decimal acc ds) := by
  induction ds generalizing acc with
  | nil => rfl
  | cons c ds ih =>
    have hc : isDigit c = true := hds c List.mem_cons_self
    have hle := Nat.le_trans (le_decimal (acc * 10 + (c.toNat - 48)) ds) h
    unfold readDigitsUpTo
    rw [digitValue?_eq_some hc]
    dsimp only
    rw [if_pos hle]
    exact ih (fun d hd => hds d (List.mem_cons_of_mem c hd)) h

/-- Nothing else is read : what is read are digits, and the number that they denote is within the
limit. -/
theorem readDigitsUpTo_eq_ok_iff (hacc : acc ≤ limit) :
    readDigitsUpTo limit acc ds = .ok n ↔ AreDigits ds ∧ decimal acc ds = n ∧ n ≤ limit := by
  constructor
  · intro h
    induction ds generalizing acc with
    | nil =>
      cases h
      exact ⟨fun _ hc => absurd hc List.not_mem_nil, rfl, hacc⟩
    | cons c ds ih =>
      unfold readDigitsUpTo at h
      split at h
      · cases h
      next d hd =>
      have hc : isDigit c = true := by
        unfold isDigit
        rw [hd]
        rfl
      obtain rfl : c.toNat - 48 = d := Option.some.inj ((digitValue?_eq_some hc).symm.trans hd)
      split at h
      · next hle =>
        obtain ⟨hds, hn, hlimit⟩ := ih hle h
        exact ⟨List.forall_mem_cons.mpr ⟨hc, hds⟩, hn, hlimit⟩
      · cases h
  · rintro ⟨hds, rfl, hlimit⟩
    exact readDigitsUpTo_eq_ok hds hlimit

theorem readDigits_eq_ok_iff :
    readDigits limit ds = .ok n ↔ ds ≠ [] ∧ AreDigits ds ∧ decimal 0 ds = n ∧ n ≤ limit := by
  cases ds with
  | nil => simp [readDigits]
  | cons c ds => simpa [readDigits] using readDigitsUpTo_eq_ok_iff (Nat.zero_le limit)

/-- Digits, one at least and behind a plus sign or none, that denote the number. -/
def IsNumber (cs : List Char) (n : Nat) : Prop :=
  ∃ ds, (cs = ds ∨ cs = '+' :: ds) ∧ ds ≠ [] ∧ AreDigits ds ∧ decimal 0 ds = n

/-- What is read are the numbers within the limit. -/
theorem readNatural_eq_ok_iff {cs : List Char} :
    readNatural limit cs = .ok n ↔ IsNumber cs n ∧ n ≤ limit := by
  unfold readNatural
  split
  · refine ⟨nofun, ?_⟩
    rintro ⟨⟨ds, rfl | h, hne, -⟩, -⟩
    · exact absurd rfl hne
    · cases h
  · next cs =>
    rw [readDigits_eq_ok_iff]
    constructor
    · rintro ⟨hne, hds, hn, hlimit⟩
      exact ⟨⟨cs, .inr rfl, hne, hds, hn⟩, hlimit⟩
    · rintro ⟨⟨ds, rfl | h, hne, hds, hn⟩, hlimit⟩
      · -- A plus sign is no digit.
        exact absurd (hds '+' List.mem_cons_self) (by decide)
      · cases h
        exact ⟨hne, hds, hn, hlimit⟩
  · next hplus =>
    rw [readDigits_eq_ok_iff]
    constructor
    · rintro ⟨hne, hds, hn, hlimit⟩
      exact ⟨⟨cs, .inl rfl, hne, hds, hn⟩, hlimit⟩
    · rintro ⟨⟨ds, rfl | h, hne, hds, hn⟩, hlimit⟩
      · exact ⟨hne, hds, hn, hlimit⟩
      · exact absurd h (hplus ds)

/-- Digits end where no digit follows. -/
theorem takeWhile_isDigit (hds : AreDigits ds) (hrest : ∀ c ∈ rest.head?, isDigit c = false) :
    (ds ++ rest).takeWhile isDigit = ds := by
  rw [List.takeWhile_append_of_pos hds]
  cases rest with
  | nil => rw [List.takeWhile_nil, List.append_nil]
  | cons c rest => rw [List.takeWhile_cons_of_neg (by simp [hrest c rfl]), List.append_nil]

/-! ## Fields told apart -/

theorem isDigit_of_append_eq_cons {tail : List Char} (hds : AreDigits ds) (hne : ds ≠ [])
    (h : ds ++ rest = c :: tail) : isDigit c = true := by
  cases ds with
  | nil => exact absurd rfl hne
  | cons d ds =>
    cases h
    exact hds c List.mem_cons_self

section Fields

variable {ds' rest' : List Char} {m : Nat}

/-- In front of a mark that is no digit, digits are told from all that comes after them. -/
theorem AreDigits.append_cons_inj (hds : AreDigits ds) (hds' : AreDigits ds')
    (hc : isDigit c = false) : ds ++ c :: rest = ds' ++ c :: rest' ↔ ds = ds' ∧ rest = rest' := by
  constructor
  · intro h
    have hmark : ∀ tail, ∀ d ∈ (c :: tail).head?, isDigit d = false := by
      rintro tail d ⟨⟩
      exact hc
    obtain rfl : ds = ds' := by
      rw [← takeWhile_isDigit hds (hmark rest), h, takeWhile_isDigit hds' (hmark rest')]
    exact ⟨rfl, List.tail_eq_of_cons_eq (List.append_cancel_left h)⟩
  · rintro ⟨rfl, rfl⟩
    rfl

theorem digits_inj : digits m = digits n ↔ m = n := by
  refine ⟨fun h => ?_, congrArg digits⟩
  rw [← decimal_digits m, h, decimal_digits]

theorem padded_inj : padded width m = padded width n ↔ m = n := by
  refine ⟨fun h => ?_, congrArg (padded width)⟩
  rw [← decimal_padded width m, h, decimal_padded]

theorem digits_append_inj (hc : isDigit c = false) :
    digits m ++ c :: rest = digits n ++ c :: rest' ↔ m = n ∧ rest = rest' := by
  rw [(areDigits_digits m).append_cons_inj (areDigits_digits n) hc, digits_inj]

theorem padded_append_inj (hc : isDigit c = false) :
    padded width m ++ c :: rest = padded width n ++ c :: rest' ↔ m = n ∧ rest = rest' := by
  rw [(areDigits_padded width m).append_cons_inj (areDigits_padded width n) hc, padded_inj]

theorem padded_append_ne_cons (width n : Nat) (hc : isDigit c = false) :
    padded width n ++ rest ≠ c :: rest' := by
  intro h
  have := isDigit_of_append_eq_cons (areDigits_padded width n) (padded_ne_nil width n) h
  rw [hc] at this
  cases this

/-- The sign counts into the width, so the length of a field does not tell it : its first character
does. -/
theorem paddedInt_append_inj {y z : Int} (hc : isDigit c = false) :
    paddedInt width y ++ c :: rest = paddedInt width z ++ c :: rest' ↔ y = z ∧ rest = rest' := by
  have hminus : isDigit '-' = false := by decide
  unfold paddedInt
  by_cases hy : y < 0
  · rw [if_pos hy, List.cons_append]
    by_cases hz : z < 0
    · have habs : y.natAbs = z.natAbs ↔ y = z := by omega
      rw [if_pos hz, List.cons_append, List.cons_inj_right, padded_append_inj hc, habs]
    · rw [if_neg hz]
      exact ⟨fun h => absurd h.symm (padded_append_ne_cons _ _ hminus), fun h => by omega⟩
  · rw [if_neg hy]
    by_cases hz : z < 0
    · rw [if_pos hz, List.cons_append]
      exact ⟨fun h => absurd h (padded_append_ne_cons _ _ hminus), fun h => by omega⟩
    · have habs : y.natAbs = z.natAbs ↔ y = z := by omega
      rw [if_neg hz, padded_append_inj hc, habs]

end Fields

end Reveille.Text
