import Reveille.Number.Power

/-!
# Binary floating point

Numbers of a binary floating point format, in exact integer arithmetic. A `Format` fixes the
precision and the exponents of the unit in the last place; a `Binary` of a format is a
sign with a mantissa and an exponent, or an infinity. `Binary.round` gives the number of a
format that is nearest to a fraction, a tie going to the even mantissa, and an infinity
past the greatest finite number.

The numbers are kept canonical : the mantissa has the full precision unless the exponent is
the least of the format, so equal numbers are equal values.
-/

namespace Reveille

/-- A binary floating point format. -/
structure Format where
  /-- Bits of the mantissa. -/
  precision : Nat
  /-- The exponent of the least unit. -/
  least : Int
  /-- The exponent of the greatest unit. -/
  greatest : Int
  deriving DecidableEq, Repr

namespace Format

def binary32 : Format := ⟨24, -149, 104⟩

def binary64 : Format := ⟨53, -1074, 971⟩

end Format

/-- A number of a format : `mantissa * 2 ^ exponent` behind its sign. -/
inductive Binary (f : Format) where
  | finite (negative : Bool) (mantissa : Nat) (exponent : Int)
  | infinite (negative : Bool)
  deriving DecidableEq, Repr

namespace Binary

variable {f : Format}

instance : Inhabited (Binary f) := ⟨.finite false 0 f.least⟩

/-! ## Rounding -/

/-- The quotient rounded to nearest, a tie to even. -/
def roundQuotient (num den : Nat) : Nat :=
  let q := num / den
  let r := num % den
  if 2 * r < den then q
  else if den < 2 * r then q + 1
  else if q % 2 = 0 then q else q + 1

/-- `num / den` in units of `2 ^ e`, as numerator and denominator. -/
def inUnits (num den : Nat) (e : Int) : Nat × Nat :=
  if 0 ≤ e then (num, den * twoPow e.toNat) else (num * twoPow (-e).toNat, den)

/-- The exponent of the unit at which a fraction is rounded. -/
def unitOf (f : Format) (num den : Nat) : Int :=
  let guess := (num.log2 : Int) - (den.log2 : Int) - (f.precision : Int)
  let (n, d) := inUnits num den guess
  max f.least (if n / d < twoPow f.precision then guess else guess + 1)

/-- The number of the format nearest to `num / den`. -/
def round (f : Format) (negative : Bool) (num den : Nat) : Binary f :=
  if num = 0 then .finite negative 0 f.least
  else
    let e := unitOf f num den
    let (n, d) := inUnits num den e
    let m := roundQuotient n d
    let (m, e) := if m = twoPow f.precision then (m / 2, e + 1) else (m, e)
    if f.greatest < e then .infinite negative else .finite negative m e

/-- Numerator and denominator of `m * 2 ^ e`. -/
def asFraction (m : Nat) (e : Int) : Nat × Nat :=
  if 0 ≤ e then (m * twoPow e.toNat, 1) else (m, twoPow (-e).toNat)

/-- The nearest number of another format. -/
def convert (g : Format) : Binary f → Binary g
  | .finite negative m e =>
    let (n, d) := asFraction m e
    round g negative n d
  | .infinite negative => .infinite negative

/-- The number of the format nearest to an integer. -/
def ofInt (f : Format) (n : Int) : Binary f := round f (n < 0) n.natAbs 1

/-! ## Arithmetic -/

/-- The product of the absolute values, rounded, with a sign. -/
def scaleUp (negative : Bool) (a b : Binary f) : Binary f :=
  match a, b with
  | .finite _ m e, .finite _ n d =>
    let (p, q) := asFraction m e
    let (r, s) := asFraction n d
    round f negative (p * r) (q * s)
  | _, _ => .infinite negative

/-- The quotient of the absolute values, rounded, with a sign; `b` is finite and not zero. -/
def scaleDown (negative : Bool) (a b : Binary f) : Binary f :=
  match a, b with
  | .finite _ m e, .finite _ n d =>
    let (p, q) := asFraction m e
    let (r, s) := asFraction n d
    round f negative (p * s) (q * r)
  | _, _ => .infinite negative

def isZero : Binary f → Bool
  | .finite _ m _ => m = 0
  | .infinite _ => false

def isInfinite : Binary f → Bool
  | .finite _ _ _ => false
  | .infinite _ => true

/-- The number lies between 0 and 1, a zero of either sign included. -/
def InUnitInterval : Binary f → Prop
  | .finite negative m e =>
    m = 0 ∨ (negative = false ∧ (asFraction m e).1 ≤ (asFraction m e).2)
  | .infinite _ => False

instance : (x : Binary f) → Decidable x.InUnitInterval
  | .finite negative m e => inferInstanceAs (Decidable
      (m = 0 ∨ (negative = false ∧ (asFraction m e).1 ≤ (asFraction m e).2)))
  | .infinite _ => inferInstanceAs (Decidable False)

/-- The two compare as equal : the same number, or two zeros. -/
def SameValue (x y : Binary f) : Prop := x = y ∨ (x.isZero = true ∧ y.isZero = true)

instance (x y : Binary f) : Decidable (x.SameValue y) :=
  inferInstanceAs (Decidable (x = y ∨ (x.isZero = true ∧ y.isZero = true)))

/-! ## Decimal input -/

/-- `10 ^ k`, rounded. -/
def powerOfTen (f : Format) (k : Nat) : Binary f := round f false (tenPow k) 1

/-- The greatest power of ten by which a decimal is scaled in one step. -/
def scaleStep : Nat := 308

/-- `x / 10 ^ k`, dividing by at most `10 ^ 308` at a time. -/
def divideByPowerOfTen (negative : Bool) (x : Binary f) (k : Nat) : Binary f :=
  if k ≤ scaleStep then scaleDown negative x (powerOfTen f k)
  else if x.isZero then x
  else divideByPowerOfTen negative (scaleDown negative x (powerOfTen f scaleStep)) (k - scaleStep)
termination_by k
decreasing_by simp [scaleStep] at *; omega

/-- The number for the decimal `significand * 10 ^ exponent` : the significand is rounded,
then multiplied or divided by the rounded power of ten. `none` where it grows past the
format. -/
def ofDecimal? (f : Format) (negative : Bool) (significand : Nat) (exponent : Int) :
    Option (Binary f) :=
  let x := round f negative significand 1
  if exponent < 0 then some (divideByPowerOfTen negative x (-exponent).toNat)
  else if x.isZero then some x
  else if exponent.toNat ≤ scaleStep then
    let y := scaleUp negative x (powerOfTen f exponent.toNat)
    if y.isInfinite then none else some y
  else none

end Binary

end Reveille
