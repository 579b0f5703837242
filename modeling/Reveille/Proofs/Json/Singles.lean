import Reveille.Proofs.Json.Reals
import Reveille.Proofs.Json.Yields
import Reveille.Proofs.Number.Widening

/-!
# Single precision numbers read back

A number in single precision between 0 and 1 is written as the shortest decimal of the same number
in double precision. It is read back as the number (`single_reads`), a zero with its sign. Only
canonical numbers are read (`single_yields`).
-/

namespace Reveille.Json

variable {style : Style} {depth m : Nat} {e : Int} {negative : Bool}
  {x : Binary Format.binary32}

open Binary Numeral

theorem scalarReads_zero (negative : Bool) :
    ∃ z, ScalarReads (realText (convert .binary64 (.finite negative 0 (-149) :
      Binary .binary32))) (.real z) ∧ z.convert .binary32 = .finite negative 0 (-149) := by
  have hzero : ofDecimal? .binary64 negative (0 * 10) (-1) = some (.finite negative 0 (-1074)) := by
    unfold ofDecimal?
    dsimp only
    rw [if_pos (by decide), divideByPowerOfTen, if_pos (by decide)]
    rfl
  exact ⟨.finite negative 0 (-1074), decimalText_digit_reads (by decide) hzero, rfl⟩

/-- A decimal of at most two is read as any decimal of the same value is. -/
theorem scalarReads_decimal {d : Shortest.Decimal} (hpos : 0 < d.digits)
    (hdigits : d.digits ≤ 10 * twoPow 54) (hexponent : -61 ≤ d.exponent)
    (htwo : (d.digits : ℚ) * 10 ^ d.exponent ≤ 2)
    (hread : ∀ s k : Nat, s ≤ twoPow 64 → 0 < k → k ≤ 61 →
      (s : ℚ) / tenPow k = d.digits * 10 ^ d.exponent →
      ∃ z, ofDecimal? .binary64 negative s (-k) = some z ∧ z.convert .binary32 = x) :
    ∃ z, ScalarReads (Layout.json.decimalText negative d) (.real z) ∧ z.convert .binary32 = x := by
  obtain ⟨n, k⟩ := d
  dsimp only at hpos hdigits hexponent htwo hread
  have hn : (1 : ℚ) ≤ n := by exact_mod_cast hpos
  rcases lt_or_ge k 0 with hneg | hnonneg
  · obtain ⟨j, hj⟩ := Int.eq_ofNat_of_zero_le (show 0 ≤ -k by omega)
    obtain rfl : k = -(j : Int) := by omega
    have hvalue : (n : ℚ) / tenPow j = n * 10 ^ (-j : Int) := by
      rw [Shortest.ten_zpow_neg, div_eq_mul_inv]
    obtain ⟨z, hz, hx⟩ := hread n j (hdigits.trans (by decide)) (by omega) (by omega) hvalue
    have hj' : j ≤ exponentLimit := le_trans (by omega : j ≤ 61) (by decide)
    exact ⟨z, decimalText_reads (by omega) hj' (hdigits.trans (by decide)) hz, hx⟩
  · obtain rfl : k = 0 := by
      by_contra hne
      have hten : (10 : ℚ) ^ (1 : Int) ≤ 10 ^ k := zpow_le_zpow_right₀ (by norm_num) (by omega)
      rw [zpow_one] at hten
      nlinarith
    have hsmall : n ≤ 2 := by
      rw [zpow_zero, mul_one] at htwo
      exact_mod_cast htwo
    have hvalue : ((n * 10 : Nat) : ℚ) / tenPow 1 = n * 10 ^ (0 : Int) := by
      rw [cast_tenPow, Nat.cast_mul, pow_one, zpow_zero, mul_one]
      exact mul_div_cancel_right₀ _ (by norm_num)
    obtain ⟨z, hz, hx⟩ := hread (n * 10) 1 (le_trans (by omega : n * 10 ≤ 20) (by decide))
      Nat.one_pos (by decide) hvalue
    exact ⟨z, decimalText_digit_reads (by omega) hz, hx⟩

/-- What is written of the number is read in double precision as one that is rounded to it. -/
theorem scalarReads_single (hx : x.IsCanonical) (h : x.InUnitInterval) :
    ∃ z, ScalarReads (realText (x.convert .binary64)) (.real z) ∧ z.convert .binary32 = x := by
  cases x with
  | infinite negative => exact h.elim
  | finite negative m e =>
    rcases Nat.eq_zero_or_pos m with rfl | hm
    · obtain ⟨-, -, -, hleast | hfull⟩ := hx
      · rw [show e = -149 from hleast]
        exact scalarReads_zero negative
      · exact absurd hfull (by decide)
    · rw [convert_widened hm hx]
      obtain ⟨hfull, hfull'⟩ := widened_bounds hm (hx.mantissa_lt.trans (by decide))
      obtain ⟨hleast, hmost⟩ := widened_exponent hm hx h
      obtain ⟨hpos, hdigits, hexponent, htwo⟩ :=
        Shortest.decimal_bounds .even hfull hfull' hleast hmost
      exact scalarReads_decimal hpos hdigits hexponent htwo fun s k hs hk hk' hvalue =>
        exists_ofDecimal?_convert .even hm hx h rfl hs hk hk' hvalue

/-- What is written of the number is read back. -/
theorem single_reads (hx : x.IsCanonical) (h : x.InUnitInterval) : Decoder.single.reader.Reads
    ((Value.real (x.convert .binary64)).write style depth) x := by
  obtain ⟨z, hreads, hz⟩ := scalarReads_single hx h
  refine Reader.reads_ofScalar (v := .real z) hreads ?_
  show Except.ok (z.convert .binary32) = _
  rw [hz]

/-- A number that is read is canonical. -/
theorem single_yields : Decoder.single.reader.run.Yields Binary.IsCanonical := by
  refine Reader.yields_ofScalar fun v x h => ?_
  cases v with
  | integer n =>
    cases h
    exact isCanonical_ofInt n (by decide) (by decide)
  | real z =>
    cases h
    exact isCanonical_convert z (by decide) (by decide)
  | null | bool _ | string _ | array _ | object _ => cases h

end Reveille.Json
