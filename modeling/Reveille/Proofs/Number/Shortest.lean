import Reveille.Number.Shortest
import Reveille.Proofs.Number.Rounding
import Reveille.Proofs.Text.Decimal

/-!
# Shortest decimals are near

A grid that is finer than half a unit has a point within the window of a number
(`Shortest.onGrid?_isSome`), so the search of finer and finer grids finds a point that is near the
number, on a grid that is not much finer than it must be (`Shortest.onGrid?_search`). For numbers up
to one that are not too small the grids that are looked at go far enough
(`Shortest.abs_decimal_sub_le`), and the decimals are not too long (`Shortest.decimal_bounds`).

The pointed layout is the plain one with `.0` behind whole numbers, but for numbers with an exponent
(`Layout.decimalText_pointed`), so no number in it looks like an integer
(`Binary.mem_text_pointed`).
-/

namespace Reveille.Shortest

open Binary

variable {tie : TieRule} {w : Window} {e k : Int} {d n : Nat}

/-! ## Grids -/

theorem ten_zpow_pos (k : Int) : (0 : ℚ) < 10 ^ k := zpow_pos (by norm_num) k

/-- Half a unit is two quarters of it. -/
theorem two_zpow_half (e : Int) : (2 : ℚ) ^ (e - 1) = 2 ^ (e - 2) * 2 := by
  rw [two_zpow_eq, sub_sub, one_add_one_eq_two]

/-- A power is the quotient of the powers of its positive and its negative part. -/
theorem zpow_eq_div {b : ℚ} (hb : b ≠ 0) (k : Int) : b ^ k = b ^ k.toNat / b ^ (-k).toNat := by
  rw [← zpow_natCast, ← zpow_natCast, ← zpow_sub₀ hb]
  congr 1
  omega

/-- A quarter of a unit is `a / b` steps of the grid. -/
theorem gridFactors_mul (e k : Int) : 0 < (gridFactors e k).1 ∧ 0 < (gridFactors e k).2 ∧
    ((gridFactors e k).1 : ℚ) * 10 ^ k = (gridFactors e k).2 * 2 ^ (e - 2) := by
  unfold gridFactors
  dsimp only
  refine ⟨Nat.mul_pos (twoPow_pos _) (tenPow_pos _), Nat.mul_pos (twoPow_pos _) (tenPow_pos _), ?_⟩
  rw [zpow_eq_div (by norm_num) k, zpow_eq_div (by norm_num) (e - 2), neg_sub]
  push_cast
  rw [cast_twoPow, cast_tenPow, cast_twoPow, cast_tenPow]
  field_simp

/-- A point of a grid lies within the window, a quarter of a unit being `a / b` steps. -/
def Window.Holds (w : Window) (a b d : Nat) : Prop :=
  if w.closed then w.low * a ≤ d * b ∧ d * b ≤ w.high * a
  else w.low * a < d * b ∧ d * b < w.high * a

theorem Window.Holds.bounds {a b : Nat} (h : w.Holds a b d) :
    w.low * a ≤ d * b ∧ d * b ≤ w.high * a := by
  unfold Window.Holds at h
  split at h <;> omega

theorem Window.holds_of_lt {a b : Nat} (hlow : w.low * a < d * b) (hhigh : d * b < w.high * a) :
    w.Holds a b d := by
  unfold Window.Holds
  split <;> omega

/-- A hit lies within the window, and without one the point above the number does not. -/
theorem onGrid?_cases (tie : TieRule) (w : Window) (e k : Int) :
    (∃ d, onGrid? tie w e k = some d ∧ w.Holds (gridFactors e k).1 (gridFactors e k).2 d) ∨
      (onGrid? tie w e k = none ∧ ¬ w.Holds (gridFactors e k).1 (gridFactors e k).2
        (w.mid * (gridFactors e k).1 / (gridFactors e k).2 + 1)) := by
  unfold onGrid?
  generalize gridFactors e k = g
  obtain ⟨a, b⟩ := g
  dsimp only
  have hfits : ∀ p, (if w.closed then decide (w.low * a ≤ p * b) && decide (p * b ≤ w.high * a)
      else decide (w.low * a < p * b) && decide (p * b < w.high * a)) = true ↔
      w.Holds a b p := by
    intro p
    unfold Window.Holds
    split <;> simp
  split
  · next habove =>
    exact .inr ⟨rfl, fun h => by simp [(hfits _).mpr h] at habove⟩
  · next hbelow _ => exact .inl ⟨_, rfl, (hfits _).mp hbelow⟩
  · next habove => exact .inl ⟨_, rfl, (hfits _).mp habove⟩
  · next hbelow habove =>
    refine .inl ?_
    split
    · exact ⟨_, rfl, (hfits _).mp hbelow⟩
    split
    · exact ⟨_, rfl, (hfits _).mp habove⟩
    split
    · exact ⟨_, rfl, (hfits _).mp habove⟩
    · refine ⟨_, rfl, ?_⟩
      split
      · exact (hfits _).mp hbelow
      · exact (hfits _).mp habove

theorem onGrid?_bounds (h : onGrid? tie w e k = some d) :
    (w.low : ℚ) * 2 ^ (e - 2) ≤ d * 10 ^ k ∧ (d : ℚ) * 10 ^ k ≤ w.high * 2 ^ (e - 2) := by
  have hholds : w.Holds (gridFactors e k).1 (gridFactors e k).2 d := by
    obtain ⟨d', hd', hholds⟩ | ⟨hnone, -⟩ := onGrid?_cases tie w e k
    · rw [h] at hd'
      cases hd'
      exact hholds
    · rw [h] at hnone
      cases hnone
  obtain ⟨hlow, hhigh⟩ := hholds.bounds
  obtain ⟨ha, hb, hfactors⟩ := gridFactors_mul e k
  generalize gridFactors e k = g at hlow hhigh ha hb hfactors
  obtain ⟨a, b⟩ := g
  dsimp only at hlow hhigh ha hb hfactors
  have ha' : (0 : ℚ) < a := by exact_mod_cast ha
  have hquarter : (2 : ℚ) ^ (e - 2) * b = 10 ^ k * a := by linarith
  have hpoint : (d : ℚ) * 10 ^ k * a = (d * b : Nat) * 2 ^ (e - 2) := by
    rw [Nat.cast_mul, mul_assoc, ← hquarter]
    ring
  have hpos := two_zpow_pos (e - 2)
  constructor <;> refine le_of_mul_le_mul_right ?_ ha' <;> rw [hpoint, mul_right_comm]
  · exact mul_le_mul_of_nonneg_right (by exact_mod_cast hlow) hpos.le
  · exact mul_le_mul_of_nonneg_right (by exact_mod_cast hhigh) hpos.le

theorem window_bounds (f : Format) (m : Nat) (e : Int) : 4 * m ≤ (window f m e).low + 2 ∧
    (window f m e).low ≤ (window f m e).mid ∧ (window f m e).mid + 2 = (window f m e).high ∧
      (window f m e).high = 4 * m + 2 := by
  unfold window
  dsimp only
  split <;> omega

/-- A hit differs from the number by half a unit at most. -/
theorem onGrid?_near {f : Format} {m : Nat} (h : onGrid? tie (window f m e) e k = some d) :
    |(d : ℚ) * 10 ^ k - m * 2 ^ e| ≤ 2 ^ (e - 1) := by
  obtain ⟨hlow, hhigh⟩ := onGrid?_bounds h
  obtain ⟨hwidth, -, -, hwidth'⟩ := window_bounds f m e
  have hquarter := two_zpow_pos (e - 2)
  have hhalf := two_zpow_half e
  have hunit := two_zpow_eq e
  have hleft : (4 * m : ℚ) ≤ (window f m e).low + 2 := by exact_mod_cast hwidth
  have hright : ((window f m e).high : ℚ) = 4 * m + 2 := by exact_mod_cast hwidth'
  rw [hright] at hhigh
  rw [hunit, hhalf, abs_le]
  constructor <;> nlinarith

/-- A grid that is finer than half a unit has a hit. -/
theorem onGrid?_isSome (tie : TieRule) (hlow : w.low ≤ w.mid) (hhigh : w.mid + 2 = w.high)
    (hfine : (10 : ℚ) ^ k < 2 ^ (e - 1)) : (onGrid? tie w e k).isSome := by
  obtain ⟨ha, hb, hfactors⟩ := gridFactors_mul e k
  obtain ⟨_, hsome, -⟩ | ⟨-, habove⟩ := onGrid?_cases tie w e k
  · rw [hsome]
    rfl
  -- The point above the number lies within the window.
  generalize gridFactors e k = g at ha hb hfactors habove
  obtain ⟨a, b⟩ := g
  dsimp only at ha hb hfactors habove
  have hhalf : b < 2 * a := by
    have hunit := two_zpow_half e
    have ha' : (0 : ℚ) < a := by exact_mod_cast ha
    have hlt : (b : ℚ) * 2 ^ (e - 2) < 2 * a * 2 ^ (e - 2) := by
      rw [← hfactors]
      nlinarith
    exact_mod_cast lt_of_mul_lt_mul_right hlt (two_zpow_pos (e - 2)).le
  have hlow' : w.low * a ≤ w.mid * a := Nat.mul_le_mul_right a hlow
  have hmod := Nat.div_add_mod (w.mid * a) b
  have hlt := Nat.mod_lt (w.mid * a) hb
  refine absurd (Window.holds_of_lt ?_ ?_) habove
  · rw [Nat.add_mul, Nat.one_mul, Nat.mul_comm _ b]
    omega
  · rw [← hhigh, Nat.add_mul, Nat.add_mul, Nat.one_mul, Nat.mul_comm _ b]
    omega

/-! ## The search -/

/-- Where one of the grids that are looked at is finer than half a unit, the search ends with a hit,
on a grid that is at most ten times finer. -/
theorem onGrid?_search (tie : TieRule) (hlow : w.low ≤ w.mid) (hhigh : w.mid + 2 = w.high) :
    ∀ (n : Nat) {k : Int}, (∃ i < n, (10 : ℚ) ^ (k - i) < 2 ^ (e - 1)) →
    (2 : ℚ) ^ (e - 1) ≤ 10 ^ (k + 1) →
    onGrid? tie w e (search tie w e n k).exponent = some (search tie w e n k).digits ∧
      (2 : ℚ) ^ (e - 1) ≤ 10 ^ ((search tie w e n k).exponent + 1)
  | 0, _, ⟨_, hi, _⟩, _ => absurd hi (Nat.not_lt_zero _)
  | n + 1, k, ⟨i, hi, hfine⟩, hcoarse => by
    unfold search
    cases hgrid : onGrid? tie w e k with
    | some d => exact ⟨hgrid, hcoarse⟩
    | none =>
      have hnot : (2 : ℚ) ^ (e - 1) ≤ 10 ^ k := by
        by_contra hlt
        have hsome := onGrid?_isSome tie hlow hhigh (not_le.mp hlt)
        rw [hgrid] at hsome
        cases hsome
      have hpos : i ≠ 0 := by
        rintro rfl
        rw [Nat.cast_zero, sub_zero] at hfine
        exact absurd hfine (not_lt.mpr hnot)
      refine onGrid?_search tie hlow hhigh n ⟨i - 1, by omega, ?_⟩ (by rwa [sub_add_cancel])
      rwa [show k - 1 - ((i - 1 : Nat) : Int) = k - i by omega]

/-! ## Numbers up to one -/

/-- The grids that are looked at reach from above half a unit of `2 ^ -j` to below it. -/
theorem grids_reach : ∀ j : Nat, j < 202 → 52 ≤ j →
    let top := (53 + -(j : Int)) * 30103 / 100000 + 2
    tenPow (-(top + 1)).toNat ≤ twoPow (j + 1) ∧ twoPow (j + 1) < tenPow (23 - top).toNat := by
  decide +kernel

theorem two_zpow_neg (n : Nat) : (2 : ℚ) ^ (-n : Int) = (twoPow n : ℚ)⁻¹ := by
  rw [zpow_neg, zpow_natCast, cast_twoPow]

theorem ten_zpow_neg (n : Nat) : (10 : ℚ) ^ (-n : Int) = (tenPow n : ℚ)⁻¹ := by
  rw [zpow_neg, zpow_natCast, cast_tenPow]

/-- The shortest decimal of a number up to one that is not too small differs from it by half a unit
at most, and it has not many digits more than it must have. -/
theorem abs_decimal_sub_le (tie : TieRule) {m : Nat} (hm : twoPow 52 ≤ m) (hm' : m < twoPow 53)
    (he : -201 ≤ e) (he' : e ≤ -52) :
    |((decimal .binary64 tie m e).digits : ℚ) * 10 ^ (decimal .binary64 tie m e).exponent
        - m * 2 ^ e| ≤ 2 ^ (e - 1) ∧
      (2 : ℚ) ^ (e - 1) ≤ 10 ^ ((decimal .binary64 tie m e).exponent + 1) := by
  obtain ⟨j, hj⟩ := Int.eq_ofNat_of_zero_le (show 0 ≤ -e by omega)
  obtain rfl : e = -(j : Int) := by omega
  have hpos := twoPow_pos 52
  have hlog : m.log2 = 52 := (Nat.log2_eq_iff (by omega)).mpr ⟨hm, hm'⟩
  obtain ⟨hcoarse, hfine⟩ := grids_reach j (by omega) (by omega)
  have hunit : (2 : ℚ) ^ (-(j : Int) - 1) = (twoPow (j + 1) : ℚ)⁻¹ := by
    rw [← two_zpow_neg]
    congr 1
    omega
  unfold decimal
  rw [if_neg (by omega)]
  unfold topExponent
  rw [hlog]
  push_cast
  have htop : (53 + -(j : Int)) * 30103 / 100000 + 2 ≤ 23 := by omega
  generalize (53 + -(j : Int)) * 30103 / 100000 + 2 = top at htop hcoarse hfine ⊢
  obtain ⟨-, hlow, hmid, -⟩ := window_bounds .binary64 m (-j)
  have hreach : (10 : ℚ) ^ (top - (23 : Nat)) < 2 ^ (-(j : Int) - 1) := by
    rw [hunit, show top - ((23 : Nat) : Int) = -((23 - top).toNat : Int) by omega, ten_zpow_neg]
    exact inv_strictAnti₀ (by exact_mod_cast twoPow_pos _) (by exact_mod_cast hfine)
  have hstart : (2 : ℚ) ^ (-(j : Int) - 1) ≤ 10 ^ (top + 1) := by
    calc (2 : ℚ) ^ (-(j : Int) - 1) = (twoPow (j + 1) : ℚ)⁻¹ := hunit
      _ ≤ (tenPow (-(top + 1)).toNat : ℚ)⁻¹ :=
          inv_anti₀ (by exact_mod_cast tenPow_pos _) (by exact_mod_cast hcoarse)
      _ = 10 ^ (-((-(top + 1)).toNat : Int)) := (ten_zpow_neg _).symm
      _ ≤ 10 ^ (top + 1) := zpow_le_zpow_right₀ (by norm_num) (by omega)
  obtain ⟨hhit, hexponent⟩ := onGrid?_search tie hlow hmid gridCount ⟨23, by decide, hreach⟩ hstart
  exact ⟨onGrid?_near hhit, hexponent⟩

/-- It has a digit, its significand fits a word, and it has not many decimals. -/
theorem decimal_bounds (tie : TieRule) {m : Nat} (hm : twoPow 52 ≤ m) (hm' : m < twoPow 53)
    (he : -201 ≤ e) (he' : e ≤ -52) :
    0 < (decimal .binary64 tie m e).digits ∧
      (decimal .binary64 tie m e).digits ≤ 10 * twoPow 54 ∧
      -61 ≤ (decimal .binary64 tie m e).exponent ∧
      ((decimal .binary64 tie m e).digits : ℚ) * 10 ^ (decimal .binary64 tie m e).exponent ≤ 2 := by
  obtain ⟨hnear, hcoarse⟩ := abs_decimal_sub_le tie hm hm' he he'
  generalize (decimal .binary64 tie m e).digits = d at hnear ⊢
  generalize (decimal .binary64 tie m e).exponent = k at hnear hcoarse ⊢
  have hunit := two_zpow_eq e
  have hhalf := two_zpow_pos (e - 1)
  have hsmall : (2 : ℚ) ^ (e - 1) ≤ 2 ^ (-53 : Int) :=
    zpow_le_zpow_right₀ (by norm_num) (by omega)
  have hlarge : (2 : ℚ) ^ (-202 : Int) ≤ 2 ^ (e - 1) :=
    zpow_le_zpow_right₀ (by norm_num) (by omega)
  have hten := ten_zpow_pos k
  have hleast : (1 : ℚ) ≤ m := by exact_mod_cast (twoPow_pos 52).trans_le hm
  have hmost : (m : ℚ) + 1 ≤ 2 ^ 53 := by
    rw [← cast_twoPow]
    exact_mod_cast hm'
  rw [hunit] at hnear
  obtain ⟨hleft, hright⟩ := abs_le.mp hnear
  have hpos : 0 < d := by
    rcases Nat.eq_zero_or_pos d with rfl | hpos
    · rw [Nat.cast_zero, zero_mul] at hleft
      nlinarith
    · exact hpos
  have hd : (1 : ℚ) ≤ d := by exact_mod_cast hpos
  have hbelow : (d : ℚ) * 10 ^ k ≤ 2 ^ 54 * 2 ^ (e - 1) := by nlinarith
  refine ⟨hpos, ?_, ?_, ?_⟩
  · have hstep : (d : ℚ) * 10 ^ k ≤ 2 ^ 54 * 10 * 10 ^ k := by
      rw [zpow_add_one₀ (by norm_num)] at hcoarse
      nlinarith
    have hdigits : (d : ℚ) ≤ 10 * twoPow 54 := by
      rw [cast_twoPow, mul_comm 10]
      exact le_of_mul_le_mul_right hstep hten
    exact_mod_cast hdigits
  · by_contra hlt
    have hfine : (10 : ℚ) ^ (k + 1) ≤ 10 ^ (-61 : Int) :=
      zpow_le_zpow_right₀ (by norm_num) (by omega)
    have hgap : (10 : ℚ) ^ (-61 : Int) < 2 ^ (-202 : Int) := by norm_num
    linarith
  · have htwo : (2 : ℚ) ^ 54 * 2 ^ (-53 : Int) = 2 := by norm_num
    linarith

end Reveille.Shortest

namespace Reveille

open Text

/-! ## Layouts -/

namespace Layout

variable {layout : Layout}

theorem point_mem_positionalText (h : layout.pointZero = true) (ds : List Char) (point : Int) :
    '.' ∈ layout.positionalText ds point := by
  unfold positionalText
  rw [if_pos h]
  split
  · simp
  · split <;> simp

theorem e_mem_exponentText (ds : List Char) (exponent : Int) :
    'e' ∈ layout.exponentText ds exponent := by
  unfold exponentText
  simp

/-- Where whole numbers end in `.0`, every decimal has a point or an exponent, and so does not look
like an integer. -/
theorem mem_decimalText (h : layout.pointZero = true) (negative : Bool) (d : Shortest.Decimal) :
    '.' ∈ layout.decimalText negative d ∨ 'e' ∈ layout.decimalText negative d := by
  have hbody : ∃ body, layout.decimalText negative d = (if negative then '-' :: body else body) ∧
      ('.' ∈ body ∨ 'e' ∈ body) := by
    unfold decimalText
    refine ⟨_, rfl, ?_⟩
    split
    · exact .inl (point_mem_positionalText h _ _)
    · split
      · exact .inl (point_mem_positionalText h _ _)
      · exact .inr (e_mem_exponentText _ _)
  obtain ⟨body, htext, hmem⟩ := hbody
  rw [htext]
  cases negative
  · exact hmem
  · exact hmem.imp (List.mem_cons_of_mem _) (List.mem_cons_of_mem _)

/-- The positional text of a layout is the plain one, and a whole number may have `.0` behind it. -/
theorem positionalText_digits (layout : Layout) (n : Nat) (exponent : Int) :
    layout.positionalText (digits n) ((digits n).length + exponent) =
      plain.positionalText (digits n) ((digits n).length + exponent) ++
        if layout.pointZero ∧ 0 ≤ exponent then ['.', '0'] else [] := by
  have hlength : 0 < (digits n).length := List.length_pos_iff.mpr (digits_ne_nil n)
  unfold positionalText
  by_cases hwhole : 0 ≤ exponent
  · have hpoint : ¬ ((digits n).length + exponent ≤ 0) := by omega
    have hbehind : ¬ ((digits n).length + exponent).toNat < (digits n).length := by omega
    simp [hpoint, hbehind, hwhole, plain]
  · have hwithin : ((digits n).length + exponent).toNat < (digits n).length := by omega
    have hnot : ¬ (layout.pointZero = true ∧ 0 ≤ exponent) := fun h => hwhole h.2
    rw [if_pos hwithin, if_pos hwithin, if_neg hnot, List.append_nil]

/-- The pointed layout is the plain one for numbers that are not too small or too large, but for the
`.0` behind a whole number. -/
theorem decimalText_pointed (negative : Bool) (d : Shortest.Decimal)
    (h : d.digits = 0 ∨ -4 ≤ ((digits d.digits).length + d.exponent - 1 : Int) ∧
      ((digits d.digits).length + d.exponent - 1 : Int) < 16) :
    pointed.decimalText negative d =
      plain.decimalText negative d ++ if 0 ≤ d.exponent then ['.', '0'] else [] := by
  have hbody := positionalText_digits pointed d.digits d.exponent
  have hzero : pointed.pointZero = true := rfl
  simp only [hzero, true_and] at hbody
  have hpointed : pointed.decimalText negative d = if negative then
      '-' :: pointed.positionalText (digits d.digits) ((digits d.digits).length + d.exponent)
      else pointed.positionalText (digits d.digits) ((digits d.digits).length + d.exponent) := by
    show (if negative then '-' :: ite _ _ _ else ite _ _ _) = _
    rw [if_pos h]
  rw [hpointed, hbody]
  cases negative <;> rfl

end Layout

/-- A number in the pointed layout does not look like an integer. -/
theorem Binary.mem_text_pointed {f : Format} {x : Binary f} (hx : x.isInfinite = false) :
    '.' ∈ x.text .pointed ∨ 'e' ∈ x.text .pointed := by
  cases x with
  | finite negative m e =>
    have hzero : Layout.pointed.pointZero = true := rfl
    exact Layout.mem_decimalText hzero negative _
  | infinite negative => cases hx

end Reveille
