import Mathlib.Algebra.Order.Floor.Semifield
import Mathlib.Data.Int.Log
import Mathlib.Data.Rat.Floor
import Mathlib.Tactic.FieldSimp
import Mathlib.Tactic.Linarith
import Mathlib.Tactic.Positivity
import Mathlib.Tactic.Ring
import Reveille.Number.Binary

/-!
# Rounding to binary numbers

A fraction is rounded in units of a power of two, which are such that the mantissa has the precision
of the format, or the least units of the format (`Binary.unitOf_eq`). What is rounded is canonical
(`Binary.isCanonical_round`). A fraction that is not too small or too large is rounded with a
relative error of half a unit of the precision (`Binary.exists_round_near`), and one that differs
from a canonical number by less than a quarter of its unit is rounded to that number
(`Binary.round_of_near`). Which numbers lie between 0 and 1 is told from mantissa and exponent
(`Binary.inUnitInterval_iff`), and canonical numbers compare as equal exactly if they are the same
fraction (`Binary.sameValue_iff`).
-/

namespace Reveille.Binary

variable {f : Format} {num den n d k m : Nat} {e u : Int}

/-! ## Fractions in units -/

theorem cast_twoPow (n : Nat) : (twoPow n : ℚ) = 2 ^ n := Nat.cast_pow 2 n

theorem twoPow_eq (hn : 0 < n) : twoPow n = twoPow (n - 1) * 2 := by
  rw [← twoPow_succ, Nat.sub_add_cancel hn]

theorem two_pow_eq (hn : 0 < n) : (2 : ℚ) ^ n = 2 ^ (n - 1) * 2 := by
  rw [← pow_succ, Nat.sub_add_cancel hn]

theorem cast_tenPow (n : Nat) : (tenPow n : ℚ) = 10 ^ n := Nat.cast_pow 10 n

theorem fraction_pos (hnum : 0 < num) (hden : 0 < den) : (0 : ℚ) < num / den :=
  div_pos (by exact_mod_cast hnum) (by exact_mod_cast hden)

theorem inUnits_div (num : Nat) (hden : 0 < den) (e : Int) :
    0 < (inUnits num den e).2 ∧
      ((inUnits num den e).1 : ℚ) / (inUnits num den e).2 = num / den / 2 ^ e := by
  unfold inUnits
  split
  · next he =>
    refine ⟨Nat.mul_pos hden (twoPow_pos _), ?_⟩
    obtain ⟨k, rfl⟩ := Int.eq_ofNat_of_zero_le he
    rw [Int.toNat_natCast, Nat.cast_mul, cast_twoPow, zpow_natCast, div_div]
  · next he =>
    refine ⟨hden, ?_⟩
    obtain ⟨k, hk⟩ := Int.eq_ofNat_of_zero_le (show 0 ≤ -e by omega)
    obtain rfl : e = -(k : Int) := by omega
    rw [neg_neg, Int.toNat_natCast, Nat.cast_mul, cast_twoPow, zpow_neg, zpow_natCast,
      div_inv_eq_mul, div_mul_eq_mul_div]

theorem asFraction_div (m : Nat) (e : Int) :
    0 < (asFraction m e).2 ∧ ((asFraction m e).1 : ℚ) / (asFraction m e).2 = m * 2 ^ e := by
  unfold asFraction
  split
  · next he =>
    refine ⟨Nat.one_pos, ?_⟩
    obtain ⟨k, rfl⟩ := Int.eq_ofNat_of_zero_le he
    rw [Int.toNat_natCast, Nat.cast_mul, cast_twoPow, zpow_natCast, Nat.cast_one, div_one]
  · next he =>
    refine ⟨twoPow_pos _, ?_⟩
    obtain ⟨k, hk⟩ := Int.eq_ofNat_of_zero_le (show 0 ≤ -e by omega)
    obtain rfl : e = -(k : Int) := by omega
    rw [neg_neg, Int.toNat_natCast, cast_twoPow, zpow_neg, zpow_natCast, div_eq_mul_inv]

theorem asFraction_le_iff : (asFraction m e).1 ≤ (asFraction m e).2 ↔ (m : ℚ) * 2 ^ e ≤ 1 := by
  obtain ⟨hden, hvalue⟩ := asFraction_div m e
  rw [← hvalue, div_le_one (by exact_mod_cast hden)]
  exact Nat.cast_le.symm

/-! ## Quotients -/

theorem abs_roundQuotient_sub_le (n : Nat) (hd : 0 < d) :
    |(roundQuotient n d : ℚ) - n / d| ≤ 1 / 2 := by
  have hd' : (0 : ℚ) < d := by exact_mod_cast hd
  have hn : (n : ℚ) / d = (n / d : Nat) + (n % d : Nat) / d := by
    have h : (n : ℚ) = d * (n / d : Nat) + (n % d : Nat) := by
      exact_mod_cast (Nat.div_add_mod n d).symm
    field_simp
    linarith
  have hlt : (n % d : Nat) < d := Nat.mod_lt n hd
  have hr : (0 : ℚ) ≤ (n % d : Nat) / d := by positivity
  have hbelow : 2 * (n % d) ≤ d → ((n % d : Nat) : ℚ) / d ≤ 1 / 2 := by
    intro h
    rw [div_le_iff₀ hd']
    have : (2 * (n % d : Nat) : ℚ) ≤ d := by exact_mod_cast h
    linarith
  have habove : d ≤ 2 * (n % d) → (1 : ℚ) / 2 ≤ (n % d : Nat) / d := by
    intro h
    rw [le_div_iff₀ hd']
    have : (d : ℚ) ≤ 2 * (n % d : Nat) := by exact_mod_cast h
    linarith
  have hone : ((n % d : Nat) : ℚ) / d ≤ 1 := by
    rw [div_le_one hd']
    exact_mod_cast hlt.le
  have hdown : 2 * (n % d) ≤ d → |((n / d : Nat) : ℚ) - n / d| ≤ 1 / 2 := by
    intro h
    rw [hn, abs_le]
    constructor <;> linarith [hbelow h]
  have hup : d ≤ 2 * (n % d) → |((n / d + 1 : Nat) : ℚ) - n / d| ≤ 1 / 2 := by
    intro h
    rw [hn, abs_le]
    push_cast
    constructor <;> linarith [habove h]
  unfold roundQuotient
  dsimp only
  split
  · exact hdown (by omega)
  split
  · exact hup (by omega)
  split
  · exact hdown (by omega)
  · exact hup (by omega)

/-- The quotient is rounded to the number from which it differs by less than a half. -/
theorem roundQuotient_eq (hd : 0 < d) (h : |(n : ℚ) / d - k| < 1 / 2) : roundQuotient n d = k := by
  have hround := abs_le.mp (abs_roundQuotient_sub_le n hd)
  have hnear := abs_lt.mp h
  have hlt : (roundQuotient n d : ℚ) < k + 1 := by linarith
  have hgt : (k : ℚ) < roundQuotient n d + 1 := by linarith
  have hlt' : roundQuotient n d < k + 1 := by exact_mod_cast hlt
  have hgt' : k < roundQuotient n d + 1 := by exact_mod_cast hgt
  omega

/-! ## Units -/

theorem two_zpow_pos (e : Int) : (0 : ℚ) < 2 ^ e := zpow_pos (by norm_num) e

theorem two_zpow_add (e u : Int) : (2 : ℚ) ^ (e + u) = 2 ^ e * 2 ^ u := zpow_add₀ (by norm_num) e u

/-- A power of two is twice the power before it. -/
theorem two_zpow_eq (e : Int) : (2 : ℚ) ^ e = 2 ^ (e - 1) * 2 := by
  rw [← zpow_add_one₀ (by norm_num), sub_add_cancel]

theorem log_eq {x : ℚ} (hx : 0 < x) (hlow : 2 ^ e ≤ x) (hhigh : x < 2 ^ (e + 1)) :
    Int.log 2 x = e := by
  have h₁ := (Int.zpow_le_iff_le_log (b := 2) (by decide) hx).mp hlow
  have h₂ := (Int.lt_zpow_iff_log_lt (b := 2) (by decide) hx).mp hhigh
  omega

theorem log2_bounds (hn : n ≠ 0) :
    (2 : ℚ) ^ (n.log2 : Int) ≤ n ∧ (n : ℚ) < 2 ^ (n.log2 + 1 : Int) := by
  constructor
  · rw [zpow_natCast]
    exact_mod_cast Nat.log2_self_le hn
  · rw [show (n.log2 + 1 : Int) = ((n.log2 + 1 : Nat) : Int) by push_cast; rfl, zpow_natCast]
    exact_mod_cast Nat.lt_log2_self

/-- The logarithm of a fraction is that of the numerator less that of the denominator, or one
less. -/
theorem log_bounds (hnum : 0 < num) (hden : 0 < den) :
    (2 : ℚ) ^ ((num.log2 : Int) - den.log2 - 1) ≤ num / den ∧
      (num / den : ℚ) < 2 ^ ((num.log2 : Int) - den.log2 + 1) := by
  have hden' : (0 : ℚ) < den := by exact_mod_cast hden
  obtain ⟨hn₁, hn₂⟩ := log2_bounds (Nat.pos_iff_ne_zero.mp hnum)
  obtain ⟨hd₁, hd₂⟩ := log2_bounds (Nat.pos_iff_ne_zero.mp hden)
  constructor
  · rw [le_div_iff₀ hden']
    calc (2 : ℚ) ^ ((num.log2 : Int) - den.log2 - 1) * den
        ≤ 2 ^ ((num.log2 : Int) - den.log2 - 1) * 2 ^ (den.log2 + 1 : Int) :=
          mul_le_mul_of_nonneg_left hd₂.le (two_zpow_pos _).le
      _ = 2 ^ (num.log2 : Int) := by
          rw [← two_zpow_add]
          congr 1
          ring
      _ ≤ num := hn₁
  · rw [div_lt_iff₀ hden']
    calc (num : ℚ) < 2 ^ (num.log2 + 1 : Int) := hn₂
      _ = 2 ^ ((num.log2 : Int) - den.log2 + 1) * 2 ^ (den.log2 : Int) := by
          rw [← two_zpow_add]
          congr 1
          ring
      _ ≤ 2 ^ ((num.log2 : Int) - den.log2 + 1) * den :=
          mul_le_mul_of_nonneg_left hd₁ (two_zpow_pos _).le

/-- In units of `unitOf` a fraction has the precision of the format, unless the unit is the
least. -/
theorem unitOf_eq (hnum : 0 < num) (hden : 0 < den) : unitOf f num den =
    max f.least (Int.log 2 (num / den : ℚ) + 1 - f.precision) := by
  have hx := fraction_pos hnum hden
  obtain ⟨hlow, hhigh⟩ := log_bounds hnum hden
  unfold unitOf
  dsimp only
  generalize hguess : (num.log2 : Int) - den.log2 - f.precision = guess
  obtain ⟨hd, hquotient⟩ := inUnits_div num hden guess
  have hd' : (0 : ℚ) < (inUnits num den guess).2 := by exact_mod_cast hd
  have hfits : (inUnits num den guess).1 / (inUnits num den guess).2 < twoPow f.precision ↔
      (num / den : ℚ) < 2 ^ ((num.log2 : Int) - den.log2) := by
    rw [Nat.div_lt_iff_lt_mul hd, ← Nat.cast_lt (α := ℚ), Nat.cast_mul, ← div_lt_iff₀ hd',
      hquotient, cast_twoPow, div_lt_iff₀ (two_zpow_pos guess), ← zpow_natCast, ← two_zpow_add,
      ← hguess]
    congr! 2
    ring
  congr 1
  split
  · next h =>
    have hlog := log_eq hx hlow (by rw [sub_add_cancel]; exact hfits.mp h)
    rw [hlog]
    omega
  · next h =>
    have hlog := log_eq hx (not_lt.mp fun hlt => h (hfits.mpr hlt)) hhigh
    rw [hlog]
    omega

/-- A fraction is less than all the units that the mantissa can count, and at least half of them
unless the unit is the least. -/
theorem unitOf_bounds (hnum : 0 < num) (hden : 0 < den) (hp : 0 < f.precision) :
    (num / den : ℚ) < 2 ^ f.precision * 2 ^ unitOf f num den ∧
      (unitOf f num den = f.least ∨
        2 ^ (f.precision - 1) * 2 ^ unitOf f num den ≤ (num / den : ℚ)) := by
  have hx := fraction_pos hnum hden
  have hu := unitOf_eq (f := f) hnum hden
  rw [← zpow_natCast, ← zpow_natCast, ← two_zpow_add, ← two_zpow_add]
  constructor
  · refine (Int.lt_zpow_iff_log_lt (b := 2) (by decide) hx).mpr ?_
    omega
  · by_cases h : unitOf f num den = f.least
    · exact .inl h
    · refine .inr ((Int.zpow_le_iff_le_log (b := 2) (by decide) hx).mpr ?_)
      omega

/-- These bounds determine the unit. -/
theorem unitOf_eq_of_bounds (hnum : 0 < num) (hden : 0 < den) (hp : 0 < f.precision)
    (hleast : f.least ≤ e) (hhigh : (num / den : ℚ) < 2 ^ f.precision * 2 ^ e)
    (hlow : e = f.least ∨ 2 ^ (f.precision - 1) * 2 ^ e ≤ (num / den : ℚ)) :
    unitOf f num den = e := by
  have hx := fraction_pos hnum hden
  have hu := unitOf_eq (f := f) hnum hden
  rw [← zpow_natCast, ← two_zpow_add] at hhigh
  have hlog := (Int.lt_zpow_iff_log_lt (b := 2) (by decide) hx).mp hhigh
  obtain rfl | hlow := hlow
  · omega
  · rw [← zpow_natCast, ← two_zpow_add] at hlow
    have hlog' := (Int.zpow_le_iff_le_log (b := 2) (by decide) hx).mp hlow
    omega

/-! ## Rounding -/

/-- How many units a fraction is rounded to. -/
def unitsOf (f : Format) (num den : Nat) : Nat :=
  let (n, d) := inUnits num den (unitOf f num den)
  roundQuotient n d

/-- So many units as a number of the format. -/
def ofUnits (f : Format) (negative : Bool) (k : Nat) (u : Int) : Binary f :=
  let (m, e) := if k = twoPow f.precision then (k / 2, u + 1) else (k, u)
  if f.greatest < e then .infinite negative else .finite negative m e

theorem round_eq_ofUnits (negative : Bool) (hnum : 0 < num) :
    round f negative num den = ofUnits f negative (unitsOf f num den) (unitOf f num den) := by
  unfold round ofUnits unitsOf
  rw [if_neg (by omega)]

theorem abs_unitsOf_sub_le (f : Format) (num : Nat) (hden : 0 < den) :
    |(unitsOf f num den : ℚ) * 2 ^ unitOf f num den - num / den| ≤ 2 ^ unitOf f num den / 2 := by
  obtain ⟨hd, hquotient⟩ := inUnits_div num hden (unitOf f num den)
  have hround := abs_roundQuotient_sub_le (inUnits num den (unitOf f num den)).1 hd
  have hpos := two_zpow_pos (unitOf f num den)
  rw [hquotient] at hround
  unfold unitsOf
  dsimp only
  generalize roundQuotient _ _ = k at hround ⊢
  generalize (2 : ℚ) ^ unitOf f num den = unit at hround hpos ⊢
  have hscale : (k : ℚ) * unit - num / den = (k - num / den / unit) * unit := by field_simp
  rw [hscale, abs_mul, abs_of_pos hpos]
  linarith [mul_le_mul_of_nonneg_right hround hpos.le]

/-- A fraction is rounded to the number of units from which it differs by less than a half. -/
theorem unitsOf_eq (hden : 0 < den) (hu : unitOf f num den = u)
    (h : |(num / den : ℚ) - k * 2 ^ u| < 2 ^ u / 2) : unitsOf f num den = k := by
  obtain ⟨hd, hquotient⟩ := inUnits_div num hden u
  have hpos := two_zpow_pos u
  unfold unitsOf
  rw [hu]
  show roundQuotient (inUnits num den u).1 (inUnits num den u).2 = k
  refine roundQuotient_eq hd ?_
  rw [hquotient, show (num / den : ℚ) / 2 ^ u - k = (num / den - k * 2 ^ u) / 2 ^ u by field_simp,
    abs_div, abs_of_pos hpos, div_lt_iff₀ hpos]
  linarith

/-- As many units as the mantissa can count, or one more. -/
theorem unitsOf_bounds (hnum : 0 < num) (hden : 0 < den) (hp : 0 < f.precision) :
    unitsOf f num den ≤ twoPow f.precision ∧
      (unitOf f num den = f.least ∨ twoPow (f.precision - 1) ≤ unitsOf f num den) := by
  obtain ⟨hhigh, hlow⟩ := unitOf_bounds (f := f) hnum hden hp
  have hnear := abs_le.mp (abs_unitsOf_sub_le f num hden)
  have hpos := two_zpow_pos (unitOf f num den)
  generalize (2 : ℚ) ^ unitOf f num den = unit at hhigh hlow hnear hpos
  constructor
  · have h : (unitsOf f num den : ℚ) * unit < (2 ^ f.precision + 1) * unit := by linarith
    have h' : (unitsOf f num den : ℚ) < twoPow f.precision + 1 := by
      rw [cast_twoPow]
      exact lt_of_mul_lt_mul_right h hpos.le
    exact Nat.le_of_lt_succ (by exact_mod_cast h')
  · refine hlow.imp_right fun hlow => ?_
    have h : (2 : ℚ) ^ (f.precision - 1) * unit < (unitsOf f num den + 1) * unit := by linarith
    have h' : (twoPow (f.precision - 1) : ℚ) < unitsOf f num den + 1 := by
      rw [cast_twoPow]
      exact lt_of_mul_lt_mul_right h hpos.le
    exact Nat.le_of_lt_succ (by exact_mod_cast h')

/-! ## Canonical numbers -/

/-- The mantissa has the precision of the format, or the exponent is the least. -/
def IsCanonical : Binary f → Prop
  | .finite _ m e => f.least ≤ e ∧ e ≤ f.greatest ∧ m < twoPow f.precision ∧
      (e = f.least ∨ twoPow (f.precision - 1) ≤ m)
  | .infinite _ => True

theorem IsCanonical.mantissa_lt {negative : Bool}
    (h : IsCanonical (.finite negative m e : Binary f)) : m < twoPow f.precision := h.2.2.1

theorem isCanonical_ofUnits (negative : Bool) (hp : 0 < f.precision) (hleast : f.least ≤ u)
    (hk : k ≤ twoPow f.precision) (hk' : u = f.least ∨ twoPow (f.precision - 1) ≤ k) :
    (ofUnits f negative k u).IsCanonical := by
  have hhalf := twoPow_eq hp
  have hpos := twoPow_pos (f.precision - 1)
  unfold ofUnits
  by_cases hfull : k = twoPow f.precision
  · simp only [if_pos hfull]
    split
    · trivial
    · exact ⟨by omega, by omega, by omega, .inr (by omega)⟩
  · simp only [if_neg hfull]
    split
    · trivial
    · exact ⟨hleast, by omega, by omega, hk'⟩

/-- What is rounded is canonical. -/
theorem isCanonical_round (negative : Bool) (num : Nat) (hden : 0 < den) (hp : 0 < f.precision)
    (hrange : f.least ≤ f.greatest) : (round f negative num den).IsCanonical := by
  rcases Nat.eq_zero_or_pos num with rfl | hnum
  · exact ⟨le_refl _, hrange, twoPow_pos _, .inl rfl⟩
  · obtain ⟨hk, hk'⟩ := unitsOf_bounds (f := f) hnum hden hp
    rw [round_eq_ofUnits negative hnum]
    refine isCanonical_ofUnits negative hp ?_ hk hk'
    rw [unitOf_eq hnum hden]
    exact le_max_left _ _

theorem isCanonical_ofInt (n : Int) (hp : 0 < f.precision) (hrange : f.least ≤ f.greatest) :
    (ofInt f n).IsCanonical :=
  isCanonical_round _ n.natAbs Nat.one_pos hp hrange

/-- What is converted to a format is canonical. -/
theorem isCanonical_convert {g : Format} (x : Binary g) (hp : 0 < f.precision)
    (hrange : f.least ≤ f.greatest) : (x.convert f).IsCanonical := by
  cases x with
  | finite negative m e => exact isCanonical_round negative _ (asFraction_div m e).1 hp hrange
  | infinite negative => trivial

/-! ## Near by -/

theorem ofUnits_of_lt (negative : Bool) (hk : k < twoPow f.precision) (hu : u ≤ f.greatest) :
    ofUnits f negative k u = .finite negative k u := by
  unfold ofUnits
  simp only [if_neg (Nat.ne_of_lt hk)]
  exact if_neg (by omega)

theorem ofUnits_full (negative : Bool) (hp : 0 < f.precision) (hu : u < f.greatest) :
    ofUnits f negative (twoPow f.precision) u =
      .finite negative (twoPow (f.precision - 1)) (u + 1) := by
  have hhalf := twoPow_eq hp
  unfold ofUnits
  simp only [if_true]
  rw [if_neg (by omega), hhalf, Nat.mul_div_cancel _ (by decide)]

/-- A fraction that is neither too small nor too large is rounded to a number that differs from it
by half a unit of the precision at most. -/
theorem exists_round_near (negative : Bool) (hnum : 0 < num) (hden : 0 < den)
    (hp : 0 < f.precision) (hlow : 2 ^ (f.precision - 1) * 2 ^ f.least ≤ (num / den : ℚ))
    (hhigh : (num / den : ℚ) < 2 ^ f.greatest) :
    ∃ m e, round f negative num den = .finite negative m e ∧
      |(m : ℚ) * 2 ^ e - num / den| ≤ num / den / 2 ^ f.precision := by
  have hnear := abs_unitsOf_sub_le f num hden
  obtain ⟨hk, -⟩ := unitsOf_bounds (f := f) hnum hden hp
  have hhalf := two_pow_eq hp
  have hunit : 2 ^ (f.precision - 1) * 2 ^ unitOf f num den ≤ (num / den : ℚ) := by
    obtain hleast | hle := (unitOf_bounds (f := f) hnum hden hp).2
    · rwa [hleast]
    · exact hle
  rw [round_eq_ofUnits negative hnum]
  generalize unitOf f num den = u at hnear hunit ⊢
  generalize unitsOf f num den = k at hnear hk ⊢
  have herror : (2 : ℚ) ^ u / 2 ≤ num / den / 2 ^ f.precision := by
    rw [hhalf, le_div_iff₀ (by positivity)]
    linarith
  have hu : u < f.greatest := by
    have hone : (1 : ℚ) ≤ 2 ^ (f.precision - 1) := one_le_pow₀ (by norm_num)
    have hlt : (2 : ℚ) ^ u < 2 ^ f.greatest := by nlinarith [two_zpow_pos u]
    exact (zpow_lt_zpow_iff_right₀ (by norm_num)).mp hlt
  obtain hlt | rfl := Nat.lt_or_eq_of_le hk
  · exact ⟨k, u, ofUnits_of_lt negative hlt hu.le, hnear.trans herror⟩
  · refine ⟨_, _, ofUnits_full negative hp hu, ?_⟩
    rw [cast_twoPow, hhalf] at hnear
    rw [cast_twoPow, add_comm u 1, two_zpow_add, zpow_one, ← mul_assoc]
    exact hnear.trans herror

/-- A fraction that differs from a canonical number by less than a quarter of its unit is rounded to
that number. -/
theorem round_of_near {negative : Bool} (hnum : 0 < num) (hden : 0 < den) (hp : 0 < f.precision)
    (hm : IsCanonical (.finite negative m e : Binary f))
    (h : |(num / den : ℚ) - m * 2 ^ e| < 2 ^ e / 4) :
    round f negative num den = .finite negative m e := by
  obtain ⟨hleast, hgreatest, hlt, hcanonical⟩ := hm
  obtain ⟨hnear₁, hnear₂⟩ := abs_lt.mp h
  have hpos := two_zpow_pos e
  have hfull := two_pow_eq hp
  rw [round_eq_ofUnits negative hnum]
  by_cases hbelow : e = f.least ∨ 2 ^ (f.precision - 1) * 2 ^ e ≤ (num / den : ℚ)
  · have hm' : (m : ℚ) + 1 ≤ 2 ^ f.precision := by
      rw [← cast_twoPow]
      exact_mod_cast hlt
    have hunit : unitOf f num den = e :=
      unitOf_eq_of_bounds hnum hden hp hleast (by nlinarith) hbelow
    rw [unitsOf_eq (k := m) hden hunit (h.trans (by linarith)), hunit]
    exact ofUnits_of_lt negative hlt hgreatest
  · -- Just below a power of two the units are half as large.
    obtain ⟨hne, hbelow⟩ := not_or.mp hbelow
    rw [not_le] at hbelow
    obtain rfl : m = twoPow (f.precision - 1) := by
      have hle := hcanonical.resolve_left hne
      have hlt' : (m : ℚ) < twoPow (f.precision - 1) + 1 := by
        rw [cast_twoPow]
        by_contra hge
        nlinarith
      have : m < twoPow (f.precision - 1) + 1 := by exact_mod_cast hlt'
      omega
    have hunits : (twoPow f.precision : ℚ) * 2 ^ (e - 1) =
        twoPow (f.precision - 1) * 2 ^ e := by
      rw [cast_twoPow, cast_twoPow, hfull, two_zpow_eq e]
      ring
    have hone : (1 : ℚ) ≤ 2 ^ (f.precision - 1) := one_le_pow₀ (by norm_num)
    rw [cast_twoPow, two_zpow_eq e] at hnear₁
    rw [two_zpow_eq e] at hbelow hpos
    have hunit : unitOf f num den = e - 1 := by
      refine unitOf_eq_of_bounds hnum hden hp (by omega) ?_ (.inr ?_)
      · rw [hfull]
        linarith
      · nlinarith
    have hquarter : (2 : ℚ) ^ e / 4 = 2 ^ (e - 1) / 2 := by
      rw [two_zpow_eq e]
      ring
    rw [unitsOf_eq (k := twoPow f.precision) hden hunit (by rwa [hunits, ← hquarter]), hunit,
      ofUnits_full negative hp (by omega), sub_add_cancel]

/-! ## Numbers between 0 and 1 -/

/-- The fraction that a number of the format is. -/
def value? : Binary f → Option ℚ
  | .finite negative m e => some (if negative then -(m * 2 ^ e) else m * 2 ^ e)
  | .infinite _ => none

theorem inUnitInterval_iff (x : Binary f) :
    x.InUnitInterval ↔ ∃ q ∈ x.value?, 0 ≤ q ∧ q ≤ 1 := by
  cases x with
  | infinite negative => simp [InUnitInterval, value?]
  | finite negative m e =>
    have hpower := two_zpow_pos e
    simp only [InUnitInterval, value?, Option.mem_some_iff, exists_eq_left']
    rw [asFraction_le_iff]
    rcases Nat.eq_zero_or_pos m with rfl | hm
    · simp
    · have hvalue : (0 : ℚ) < m * 2 ^ e := mul_pos (by exact_mod_cast hm) hpower
      cases negative
      · simp [hvalue.le, hm.ne']
      · -- Less than 0.
        simp [hvalue, hm.ne']

/-! ## Equal numbers -/

/-- Two canonical numbers of one sign and one fraction, not zero, are the same number. -/
theorem IsCanonical.eq_of_mul_eq {negative : Bool} (hp : 0 < f.precision) (hm : 0 < m)
    (hx : IsCanonical (.finite negative m e : Binary f))
    (hy : IsCanonical (.finite negative n u : Binary f)) (h : (m : ℚ) * 2 ^ e = n * 2 ^ u) :
    m = n ∧ e = u := by
  obtain ⟨hden, hvalue⟩ := asFraction_div m e
  have hnum : 0 < (asFraction m e).1 := by
    unfold asFraction
    split
    · exact Nat.mul_pos hm (twoPow_pos _)
    · exact hm
  -- Both are what the fraction is rounded to.
  have hround : round f negative (asFraction m e).1 (asFraction m e).2 = .finite negative m e := by
    refine round_of_near hnum hden hp hx ?_
    rw [hvalue, sub_self, abs_zero]
    exact div_pos (two_zpow_pos e) (by norm_num)
  have hround' : round f negative (asFraction m e).1 (asFraction m e).2 = .finite negative n u := by
    refine round_of_near hnum hden hp hy ?_
    rw [hvalue, h, sub_self, abs_zero]
    exact div_pos (two_zpow_pos u) (by norm_num)
  cases hround.symm.trans hround'
  exact ⟨rfl, rfl⟩

/-- Fractions behind their signs, the one of them not zero, are on the same side of 0 if they are
equal. -/
theorem eq_of_signed_eq {negative negative' : Bool} {a b : ℚ} (ha : 0 < a) (hb : 0 ≤ b)
    (h : (if negative then -a else a) = if negative' then -b else b) :
    negative = negative' ∧ a = b := by
  cases negative <;> cases negative' <;> simp at h
  · exact ⟨rfl, h⟩
  · linarith
  · linarith
  · exact ⟨rfl, h⟩

/-- A canonical number that is a fraction compares as equal with the canonical numbers that are the
same fraction. -/
theorem sameValue_iff {x y : Binary f} {q : ℚ} (hp : 0 < f.precision) (hx : x.IsCanonical)
    (hy : y.IsCanonical) (hq : x.value? = some q) : x.SameValue y ↔ y.value? = some q := by
  cases x with
  | infinite negative => cases hq
  | finite negative m e =>
    cases hq
    cases y with
    | infinite negative' => simp [SameValue, isZero, value?]
    | finite negative' n u =>
      simp only [SameValue, isZero, value?, finite.injEq, decide_eq_true_eq, Option.some.injEq]
      rcases Nat.eq_zero_or_pos m with rfl | hm
      · -- Zeros of either sign are the same, and nothing else is 0.
        have hunit := two_zpow_pos u
        by_cases hn : n = 0
        · simp [hn]
        · cases negative' <;> simp [hn, hunit.ne', Ne.symm hn]
      · have hm' : (0 : ℚ) < m * 2 ^ e := mul_pos (by exact_mod_cast hm) (two_zpow_pos e)
        have hn' : (0 : ℚ) ≤ n * 2 ^ u := mul_nonneg (Nat.cast_nonneg n) (two_zpow_pos u).le
        constructor
        · rintro (⟨rfl, rfl, rfl⟩ | ⟨hzero, -⟩)
          · rfl
          · exact absurd hzero hm.ne'
        · intro h
          obtain ⟨rfl, hvalue⟩ := eq_of_signed_eq hm' hn' h.symm
          exact .inl ⟨rfl, IsCanonical.eq_of_mul_eq hp hm hx hy hvalue⟩

end Reveille.Binary
