import Reveille.Number.Binary
import Reveille.Text.Decimal

/-!
# Shortest decimals

The shortest decimal that reads back as a given binary floating point number, and the
layouts in which such decimals are written.

The decimals that read back as `m * 2 ^ e` are those between the midpoints to its two
neighbours, the midpoints themselves included if `m` is even. The coarsest grid of
multiples of a power of ten that has a point there has such a point next to the number, so
on each grid only the two points around the number are tested; `Shortest.decimal` takes the
first grid with a hit, coming from the coarse side, and of two hits the nearer. On an exact
tie `TieRule` decides.

A `Layout` says which decimals are written positionally and how the others are.
-/

namespace Reveille

open Text

namespace Shortest

/-- Which of two equally near decimals is taken. -/
inductive TieRule where
  | upper
  | even
  deriving DecidableEq, Repr

/-- A decimal `digits * 10 ^ exponent`. -/
structure Decimal where
  digits : Nat
  exponent : Int
  deriving DecidableEq, Repr

/-- The range of decimals that read back, in quarters of the unit : the number is at
`4 * m`, and the ends belong to the range if `m` is even. Below the least mantissa of a
full precision the neighbour is only half as far. -/
structure Window where
  low : Nat
  mid : Nat
  high : Nat
  closed : Bool

def window (f : Format) (m : Nat) (e : Int) : Window :=
  let toLower := if m = twoPow (f.precision - 1) ∧ f.least < e then 1 else 2
  ⟨4 * m - toLower, 4 * m, 4 * m + 2, m % 2 = 0⟩

/-- The factors `a` and `b` for which a quarter unit of `2 ^ e` is `a / b` steps of the grid
of multiples of `10 ^ k`. -/
def gridFactors (e k : Int) : Nat × Nat :=
  (twoPow (e - 2).toNat * tenPow (-k).toNat, twoPow (2 - e).toNat * tenPow k.toNat)

/-- The point of the grid that reads back and is nearest to the number. -/
def onGrid? (tie : TieRule) (w : Window) (e k : Int) : Option Nat :=
  let (a, b) := gridFactors e k
  let below := w.mid * a / b
  let above := below + 1
  let fits (d : Nat) : Bool :=
    if w.closed then w.low * a ≤ d * b && d * b ≤ w.high * a
    else w.low * a < d * b && d * b < w.high * a
  let twice := 2 * (w.mid * a)
  let middle := (2 * below + 1) * b
  match fits below, fits above with
  | false, false => none
  | true, false => some below
  | false, true => some above
  | true, true =>
    if twice < middle then some below
    else if middle < twice then some above
    else
      match tie with
      | .upper => some above
      | .even => some (if below % 2 = 0 then below else above)

/-- A power of ten above the number `m * 2 ^ e`. -/
def topExponent (m : Nat) (e : Int) : Int := ((m.log2 : Int) + 1 + e) * 30103 / 100000 + 2

/-- The first hit on the grids of `10 ^ (top - 1)`, `10 ^ (top - 2)` and so on. -/
def search (tie : TieRule) (w : Window) (e : Int) : Nat → Int → Decimal
  | 0, k => ⟨0, k⟩
  | n + 1, k =>
    match onGrid? tie w e k with
    | some d => ⟨d, k⟩
    | none => search tie w e n (k - 1)

/-- How many grids are looked at : more than the digits that any format here needs. -/
def gridCount : Nat := 24

/-- The shortest decimal that reads back as `m * 2 ^ e`. -/
def decimal (f : Format) (tie : TieRule) (m : Nat) (e : Int) : Decimal :=
  if m = 0 then ⟨0, 0⟩
  else search tie (window f m e) e gridCount (topExponent m e)

end Shortest

/-! ## Layouts -/

/-- How a decimal is laid out. -/
structure Layout where
  tie : Shortest.TieRule
  /-- The decimal exponents of the first digit from which and below which the decimal is
  written positionally; without them it always is. -/
  positional : Option (Int × Int)
  /-- A whole number written positionally ends in `.0`. -/
  pointZero : Bool
  /-- A positive exponent has a plus sign. -/
  plusSign : Bool
  deriving DecidableEq, Repr

namespace Layout

/-- Digits and no exponent. -/
def plain : Layout := ⟨.upper, none, false, false⟩

/-- A decimal point or an exponent, whichever is shorter to read. -/
def pointed : Layout := ⟨.upper, some (-4, 16), true, false⟩

/-- The form of numbers in JSON files. -/
def json : Layout := ⟨.even, some (-5, 16), true, true⟩

/-- Digits with the decimal point after the first `point` of them. -/
def positionalText (layout : Layout) (ds : List Char) (point : Int) : List Char :=
  if point ≤ 0 then '0' :: '.' :: List.replicate (-point).toNat '0' ++ ds
  else if point.toNat < ds.length then ds.take point.toNat ++ '.' :: ds.drop point.toNat
  else
    ds ++ List.replicate (point.toNat - ds.length) '0'
      ++ if layout.pointZero then ['.', '0'] else []

/-- Digits with the decimal point after the first of them and an exponent. -/
def exponentText (layout : Layout) (ds : List Char) (exponent : Int) : List Char :=
  let fraction := if ds.length ≤ 1 then [] else '.' :: ds.drop 1
  let sign := if layout.plusSign && 0 ≤ exponent then ['+'] else []
  ds.take 1 ++ fraction ++ 'e' :: sign ++ integer exponent

/-- A decimal behind its sign. -/
def decimalText (layout : Layout) (negative : Bool) (d : Shortest.Decimal) : List Char :=
  let ds := digits d.digits
  let point := (ds.length : Int) + d.exponent
  let body :=
    match layout.positional with
    | none => positionalText layout ds point
    | some (least, most) =>
      if d.digits = 0 ∨ (least ≤ point - 1 ∧ point - 1 < most) then
        positionalText layout ds point
      else exponentText layout ds (point - 1)
  if negative then '-' :: body else body

end Layout

/-- A binary number as its shortest decimal. -/
def Binary.text {f : Format} (layout : Layout) : Binary f → List Char
  | .finite negative m e =>
    layout.decimalText negative (Shortest.decimal f layout.tie m e)
  | .infinite negative => if negative then ['-', 'i', 'n', 'f'] else ['i', 'n', 'f']

end Reveille
