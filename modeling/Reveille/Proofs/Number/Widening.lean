import Reveille.Proofs.Number.Shortest

/-!
# Single precision numbers as decimals

A number of single precision that is widened to double precision keeps its value
(`Binary.convert_widened`). Reading a decimal in double precision takes two roundings and a
division that is rounded, so the result is near the decimal, though it need not be the nearest
number (`Binary.ofDecimal?_within`). That is near enough for single precision : the shortest decimal
of a number between 0 and 1 that has been widened is read as some number in double precision that
is rounded to the same number in single precision (`Binary.exists_ofDecimal?_convert`).
-/

namespace Reveille

/-! ## Relative errors -/

/-- The numbers differ by the part `δ` of the second at most. -/
def Within (δ x y : ℚ) : Prop := |x - y| ≤ y * δ

namespace Within

variable {δ ε x y z a b : ℚ}

theorem bounds (h : Within δ x y) : y * (1 - δ) ≤ x ∧ x ≤ y * (1 + δ) := by
  obtain ⟨hleft, hright⟩ := abs_le.mp h
  constructor <;> linarith

theorem of_bounds (hleft : y * (1 - δ) ≤ x) (hright : x ≤ y * (1 + δ)) : Within δ x y :=
  abs_le.mpr ⟨by linarith, by linarith⟩

theorem pos (h : Within δ x y) (hy : 0 < y) (hδ : δ < 1) : 0 < x :=
  lt_of_lt_of_le (mul_pos hy (by linarith)) h.bounds.1

theorem mono (h : Within δ x y) (hy : 0 ≤ y) (hδ : δ ≤ ε) : Within ε x y :=
  h.trans (mul_le_mul_of_nonneg_left hδ hy)

theorem trans (h : Within δ x y) (h' : Within ε y z) (hδ : 0 ≤ δ) (hδ' : δ ≤ 1) :
    Within (δ + ε + δ * ε) x z := by
  obtain ⟨hleft, hright⟩ := h.bounds
  obtain ⟨hleft', hright'⟩ := h'.bounds
  refine of_bounds ?_ ?_
  · have herror : 0 ≤ z * ε * δ := mul_nonneg ((abs_nonneg _).trans h') hδ
    calc z * (1 - (δ + ε + δ * ε)) ≤ z * (1 - ε) * (1 - δ) := by linarith
      _ ≤ y * (1 - δ) := mul_le_mul_of_nonneg_right hleft' (by linarith)
      _ ≤ x := hleft
  · calc x ≤ y * (1 + δ) := hright
      _ ≤ z * (1 + ε) * (1 + δ) := mul_le_mul_of_nonneg_right hright' (by linarith)
      _ = z * (1 + (δ + ε + δ * ε)) := by ring

/-- The quotient of numbers that are near to others is near to their quotient. -/
theorem div (ha : Within δ x a) (hb : Within δ y b) (ha₀ : 0 < a) (hb₀ : 0 < b) (hδ : 0 ≤ δ)
    (hδ' : δ ≤ 1 / 4) : Within (4 * δ) (x / y) (a / b) := by
  obtain ⟨hleft, hright⟩ := ha.bounds
  obtain ⟨hleft', hright'⟩ := hb.bounds
  have hab : 0 ≤ a * b * δ := mul_nonneg (mul_pos ha₀ hb₀).le hδ
  have hy : 0 < y := hb.pos hb₀ (by linarith)
  refine of_bounds ?_ ?_
  · rw [le_div_iff₀ hy, div_mul_eq_mul_div, div_mul_eq_mul_div, div_le_iff₀ hb₀]
    calc a * (1 - 4 * δ) * y ≤ a * (1 - 4 * δ) * (b * (1 + δ)) :=
          mul_le_mul_of_nonneg_left hright' (mul_nonneg ha₀.le (by linarith))
      _ ≤ a * (1 - δ) * b := by nlinarith [mul_nonneg hab hδ]
      _ ≤ x * b := mul_le_mul_of_nonneg_right hleft hb₀.le
  · rw [div_le_iff₀ hy, div_mul_eq_mul_div, div_mul_eq_mul_div, le_div_iff₀ hb₀]
    calc x * b ≤ a * (1 + δ) * b := mul_le_mul_of_nonneg_right hright hb₀.le
      _ ≤ a * (1 + 4 * δ) * (b * (1 - δ)) := by
          nlinarith [mul_le_mul_of_nonneg_left hδ' hab]
      _ ≤ a * (1 + 4 * δ) * y :=
          mul_le_mul_of_nonneg_left hleft' (mul_nonneg ha₀.le (by linarith))

end Within

/-! ## Conversions -/

namespace Binary

variable {f g : Format} {m n : Nat} {e u : Int} {negative : Bool}

/-- A number that differs from one of another format by less than a quarter of its unit is converted
to it. -/
theorem convert_of_near (hm : 0 < m) (hg : 0 < g.precision)
    (hn : IsCanonical (.finite negative n u : Binary g))
    (h : |(m : ℚ) * 2 ^ e - n * 2 ^ u| < 2 ^ u / 4) :
    convert g (.finite negative m e : Binary f) = .finite negative n u := by
  obtain ⟨hden, hvalue⟩ := asFraction_div m e
  have hpos : (0 : ℚ) < (asFraction m e).1 := by
    have hx : (0 : ℚ) < m * 2 ^ e := mul_pos (by exact_mod_cast hm) (two_zpow_pos e)
    rw [← hvalue] at hx
    exact (div_pos_iff_of_pos_right (by exact_mod_cast hden)).mp hx
  rw [← hvalue] at h
  exact round_of_near (by exact_mod_cast hpos) hden hg hn h

/-- In single precision an error that is much smaller than half a unit is rounded off. -/
theorem convert_of_within (hm : 0 < m)
    (hx : IsCanonical (.finite negative m e : Binary .binary32))
    (h : Within (1 / 2 ^ 49) (n * 2 ^ u) (m * 2 ^ e)) :
    convert .binary32 (.finite negative n u : Binary f) = .finite negative m e := by
  have hunit := two_zpow_pos e
  have hless : (m : ℚ) * 2 ^ e < 2 ^ 24 * 2 ^ e := by
    rw [← cast_twoPow]
    exact mul_lt_mul_of_pos_right (by exact_mod_cast hx.mantissa_lt) hunit
  have hn : 0 < n := by
    have hpos := h.pos (mul_pos (by exact_mod_cast hm) hunit) (by norm_num)
    exact_mod_cast (mul_pos_iff_of_pos_right (two_zpow_pos u)).mp hpos
  refine convert_of_near hn (by decide) hx (lt_of_le_of_lt h ?_)
  calc (m : ℚ) * 2 ^ e * (1 / 2 ^ 49) < 2 ^ 24 * 2 ^ e * (1 / 2 ^ 49) :=
        mul_lt_mul_of_pos_right hless (by norm_num)
    _ ≤ 2 ^ e / 4 := by linarith

theorem shifted_eq (m s : Nat) (e : Int) :
    ((m * twoPow s : Nat) : ℚ) * 2 ^ (e - s) = m * 2 ^ e := by
  rw [Nat.cast_mul, cast_twoPow, ← zpow_natCast, mul_assoc, ← two_zpow_add]
  congr 2
  ring

/-- With so many more bits a mantissa has the precision of double precision. -/
theorem widened_bounds (hm : 0 < m) (hm' : m < twoPow 53) :
    twoPow 52 ≤ m * twoPow (52 - m.log2) ∧ m * twoPow (52 - m.log2) < twoPow 53 := by
  have hlog : m.log2 < 53 := Nat.log2_lt (by omega) |>.mpr hm'
  have hlow : twoPow m.log2 ≤ m := Nat.log2_self_le (by omega)
  have hhigh : m < twoPow (m.log2 + 1) := Nat.lt_log2_self
  have hpos := twoPow_pos (52 - m.log2)
  have hsplit : ∀ a b, twoPow (a + b) = twoPow a * twoPow b := Nat.pow_add 2
  constructor
  · calc twoPow 52 = twoPow m.log2 * twoPow (52 - m.log2) := by
          rw [← hsplit, Nat.add_sub_cancel' (by omega)]
      _ ≤ m * twoPow (52 - m.log2) := Nat.mul_le_mul_right _ hlow
  · calc m * twoPow (52 - m.log2) < twoPow (m.log2 + 1) * twoPow (52 - m.log2) :=
          (Nat.mul_lt_mul_right hpos).mpr hhigh
      _ = twoPow 53 := by
          rw [← hsplit]
          congr 1
          omega

/-- In double precision a number of single precision has a mantissa of full precision. -/
theorem convert_widened (hm : 0 < m)
    (hx : IsCanonical (.finite negative m e : Binary .binary32)) :
    convert .binary64 (.finite negative m e : Binary .binary32) =
      .finite negative (m * twoPow (52 - m.log2)) (e - (52 - m.log2 : Nat)) := by
  obtain ⟨hleast, hgreatest, hlt, -⟩ := hx
  obtain ⟨hfull, hfull'⟩ := widened_bounds hm (hlt.trans (by decide))
  refine convert_of_near hm (by decide) ⟨?_, ?_, hfull', .inr hfull⟩ ?_
  · have hleast' : (-149 : Int) ≤ e := hleast
    show (-1074 : Int) ≤ _
    omega
  · have hgreatest' : e ≤ (104 : Int) := hgreatest
    show _ ≤ (971 : Int)
    omega
  · rw [shifted_eq, sub_self, abs_zero]
    exact div_pos (two_zpow_pos _) (by norm_num)

/-! ## Decimals read in double precision -/

/-- A fraction that is neither too small nor too large is rounded with a relative error of half a
unit of the precision. -/
theorem exists_round_within {num den : Nat} (negative : Bool) {x : ℚ} (hx : x = num / den)
    (hlow : 2 ^ (-256 : Int) ≤ x) (hhigh : x < 2 ^ (256 : Int)) :
    ∃ m e, round .binary64 negative num den = .finite negative m e ∧
      Within (1 / 2 ^ 53) (m * 2 ^ e) x := by
  have hpos : (0 : ℚ) < x := (two_zpow_pos _).trans_le hlow
  have hden : 0 < den := by
    refine Nat.pos_of_ne_zero fun hzero => ?_
    rw [hx, hzero, Nat.cast_zero, div_zero] at hpos
    exact hpos.false
  have hnum : 0 < num := by
    refine Nat.pos_of_ne_zero fun hzero => ?_
    rw [hx, hzero, Nat.cast_zero, zero_div] at hpos
    exact hpos.false
  have hleast : (2 : ℚ) ^ (Format.binary64.precision - 1) * 2 ^ Format.binary64.least ≤
      2 ^ (-256 : Int) := by
    rw [← zpow_natCast, ← two_zpow_add]
    exact zpow_le_zpow_right₀ (by norm_num) (by decide)
  have hgreatest : (2 : ℚ) ^ (256 : Int) ≤ 2 ^ Format.binary64.greatest :=
    zpow_le_zpow_right₀ (by norm_num) (by decide)
  subst hx
  obtain ⟨m, e, hround, hnear⟩ := exists_round_near negative hnum hden (by decide)
    (hleast.trans hlow) (hhigh.trans_le hgreatest)
  refine ⟨m, e, hround, hnear.trans_eq ?_⟩
  rw [mul_one_div]
  rfl

/-- A natural number is rounded so. -/
theorem exists_round_nat (negative : Bool) (hn : 0 < n) (hn' : (n : ℚ) < 2 ^ (256 : Int)) :
    ∃ m e, round .binary64 negative n 1 = .finite negative m e ∧
      Within (1 / 2 ^ 53) (m * 2 ^ e) n := by
  have hone : (1 : ℚ) ≤ n := by exact_mod_cast hn
  exact exists_round_within negative (by rw [Nat.cast_one, div_one])
    ((zpow_le_one_of_nonpos₀ (by norm_num) (by decide)).trans hone) hn'

/-- The quotient of two numbers is rounded so. -/
theorem exists_scaleDown {m₁ m₂ : Nat} {e₁ e₂ : Int} {s₁ s₂ : Bool} (negative : Bool) {x : ℚ}
    (hx : x = m₁ * 2 ^ e₁ / (m₂ * 2 ^ e₂)) (hlow : 2 ^ (-256 : Int) ≤ x)
    (hhigh : x < 2 ^ (256 : Int)) :
    ∃ m e, scaleDown negative (.finite s₁ m₁ e₁) (.finite s₂ m₂ e₂ : Binary .binary64) =
      .finite negative m e ∧ Within (1 / 2 ^ 53) (m * 2 ^ e) x := by
  obtain ⟨hden₁, hvalue₁⟩ := asFraction_div m₁ e₁
  obtain ⟨hden₂, hvalue₂⟩ := asFraction_div m₂ e₂
  have hfraction : x = ((asFraction m₁ e₁).1 * (asFraction m₂ e₂).2 : Nat) /
      ((asFraction m₁ e₁).2 * (asFraction m₂ e₂).1 : Nat) := by
    rw [hx, ← hvalue₁, ← hvalue₂, div_div_div_eq, Nat.cast_mul, Nat.cast_mul]
  exact exists_round_within negative hfraction hlow hhigh

/-- A decimal is read as a number that is near to it. -/
theorem ofDecimal?_within (negative : Bool) {d k : Nat} (hd : 0 < d) (hd' : d ≤ twoPow 64)
    (hk : 0 < k) (hk' : k ≤ 61) :
    ∃ m e, ofDecimal? .binary64 negative d (-k) = some (.finite negative m e) ∧
      Within (1 / 2 ^ 50) (m * 2 ^ e) (d / tenPow k) := by
  have hd₁ : (1 : ℚ) ≤ d := by exact_mod_cast hd
  have hd₂ : (d : ℚ) ≤ 2 ^ 64 := by
    rw [← cast_twoPow]
    exact_mod_cast hd'
  have hten₁ : (1 : ℚ) ≤ tenPow k := by exact_mod_cast tenPow_pos k
  have hten₂ : (tenPow k : ℚ) ≤ 10 ^ 61 := by
    rw [cast_tenPow]
    exact pow_le_pow_right₀ (by norm_num) hk'
  have hlimit₁ : (2 : ℚ) ^ 64 * 2 < 2 ^ (256 : Int) := by norm_num
  have hlimit₂ : (10 : ℚ) ^ 61 < 2 ^ (256 : Int) := by norm_num
  have hlimit₃ : (2 : ℚ) ^ (-256 : Int) ≤ 1 / 10 ^ 61 / 2 := by norm_num
  obtain ⟨m₁, e₁, hround₁, hnear₁⟩ := exists_round_nat negative hd (by linarith)
  obtain ⟨m₂, e₂, hround₂, hnear₂⟩ := exists_round_nat false (tenPow_pos k) (by linarith)
  have hquotient := hnear₁.div hnear₂ (by linarith) (by linarith) (by norm_num) (by norm_num)
  have hleast : 1 / 10 ^ 61 ≤ (d : ℚ) / tenPow k :=
    div_le_div₀ (by linarith) hd₁ (by linarith) hten₂
  have hmost : (d : ℚ) / tenPow k ≤ 2 ^ 64 := by
    rw [div_le_iff₀ (by linarith)]
    nlinarith
  obtain ⟨hleft, hright⟩ := hquotient.bounds
  generalize hx : (m₁ : ℚ) * 2 ^ e₁ / (m₂ * 2 ^ e₂) = x at hquotient hleft hright
  generalize (d : ℚ) / tenPow k = y at hquotient hleast hmost hleft hright ⊢
  obtain ⟨m, e, hround, hnear⟩ := exists_scaleDown negative hx.symm
    (hlimit₃.trans (by linarith)) (lt_of_le_of_lt (by linarith) hlimit₁)
  refine ⟨m, e, ?_, (hnear.trans hquotient (by norm_num) (by norm_num)).mono ?_ ?_⟩
  · have hsteps : (- -(k : Int)).toNat = k := by omega
    unfold ofDecimal?
    dsimp only
    rw [if_pos (by omega), hround₁, hsteps, divideByPowerOfTen,
      if_pos (show k ≤ scaleStep from hk'.trans (by decide)),
      show powerOfTen .binary64 k = .finite false m₂ e₂ from hround₂, hround]
  · exact le_trans (by norm_num) hleast
  · norm_num

/-! ## Numbers between 0 and 1 -/

theorem le_one_of_inUnitInterval (hm : 0 < m)
    (h : InUnitInterval (.finite negative m e : Binary f)) : (m : ℚ) * 2 ^ e ≤ 1 := by
  obtain hzero | ⟨-, hle⟩ := h
  · omega
  · exact asFraction_le_iff.mp hle

/-- The unit of a number of single precision up to one, in double precision. -/
theorem widened_exponent (hm : 0 < m) (hx : IsCanonical (.finite negative m e : Binary .binary32))
    (h : InUnitInterval (.finite negative m e : Binary .binary32)) :
    -201 ≤ e - (52 - m.log2 : Nat) ∧ e - (52 - m.log2 : Nat) ≤ -52 := by
  obtain ⟨hleast, -, hlt, -⟩ := hx
  obtain ⟨hfull, -⟩ := widened_bounds hm (hlt.trans (by decide))
  have hone := le_one_of_inUnitInterval hm h
  have hleast' : (-149 : Int) ≤ e := hleast
  refine ⟨by omega, ?_⟩
  rw [← shifted_eq m (52 - m.log2)] at hone
  generalize e - (52 - m.log2 : Nat) = u at hone ⊢
  have hpower : (2 : ℚ) ^ (52 + u) ≤ 2 ^ (0 : Int) := by
    calc (2 : ℚ) ^ (52 + u) = twoPow 52 * 2 ^ u := by
          rw [two_zpow_add, cast_twoPow, ← zpow_natCast]
          rfl
      _ ≤ (m * twoPow (52 - m.log2) : Nat) * 2 ^ u :=
          mul_le_mul_of_nonneg_right (by exact_mod_cast hfull) (two_zpow_pos u).le
      _ ≤ 1 := hone
      _ = 2 ^ (0 : Int) := (zpow_zero 2).symm
  have := (zpow_le_zpow_iff_right₀ (by norm_num : (1 : ℚ) < 2)).mp hpower
  omega

/-- The shortest decimal of the number, when it has been widened, is near to it. -/
theorem decimal_within (tie : Shortest.TieRule) (hm : 0 < m)
    (hx : IsCanonical (.finite negative m e : Binary .binary32))
    (h : InUnitInterval (.finite negative m e : Binary .binary32)) {d : Shortest.Decimal}
    (hd : d = Shortest.decimal .binary64 tie (m * twoPow (52 - m.log2))
      (e - (52 - m.log2 : Nat))) :
    Within (1 / 2 ^ 53) (d.digits * 10 ^ d.exponent) (m * 2 ^ e) := by
  obtain ⟨hfull, hfull'⟩ := widened_bounds hm (hx.mantissa_lt.trans (by decide))
  obtain ⟨hleast, hmost⟩ := widened_exponent hm hx h
  obtain ⟨hnear, -⟩ := Shortest.abs_decimal_sub_le tie hfull hfull' hleast hmost
  rw [← hd, shifted_eq] at hnear
  refine hnear.trans ?_
  have hfull₀ : (2 : ℚ) ^ 52 ≤ (m * twoPow (52 - m.log2) : Nat) := by
    rw [← cast_twoPow]
    exact_mod_cast hfull
  rw [← shifted_eq m (52 - m.log2) e, two_zpow_eq (e - (52 - m.log2 : Nat))]
  nlinarith [two_zpow_pos (e - (52 - m.log2 : Nat) - 1)]

/-- That decimal is read in double precision as a number that is rounded to the one in single
precision, with whichever zeros at its end it is written. -/
theorem exists_ofDecimal?_convert (tie : Shortest.TieRule) (hm : 0 < m)
    (hx : IsCanonical (.finite negative m e : Binary .binary32))
    (h : InUnitInterval (.finite negative m e : Binary .binary32)) {d : Shortest.Decimal}
    (hd : d = Shortest.decimal .binary64 tie (m * twoPow (52 - m.log2))
      (e - (52 - m.log2 : Nat))) {s k : Nat} (hs : s ≤ twoPow 64) (hk : 0 < k) (hk' : k ≤ 61)
    (hvalue : (s : ℚ) / tenPow k = d.digits * 10 ^ d.exponent) :
    ∃ z, ofDecimal? .binary64 negative s (-k) = some z ∧
      z.convert .binary32 = .finite negative m e := by
  have hpos : 0 < (m : ℚ) * 2 ^ e := mul_pos (by exact_mod_cast hm) (two_zpow_pos e)
  have hdecimal := decimal_within tie hm hx h hd
  rw [← hvalue] at hdecimal
  have hs₀ : 0 < s := by
    have hquotient := hdecimal.pos hpos (by norm_num)
    exact_mod_cast (div_pos_iff_of_pos_right (by exact_mod_cast tenPow_pos k)).mp hquotient
  obtain ⟨n, u, hz, hread⟩ := ofDecimal?_within negative hs₀ hs hk hk'
  have hboth := (hread.trans hdecimal (by norm_num) (by norm_num)).mono hpos.le
    (show _ ≤ (1 : ℚ) / 2 ^ 49 by norm_num)
  exact ⟨_, hz, convert_of_within hm hx hboth⟩

end Binary

end Reveille
