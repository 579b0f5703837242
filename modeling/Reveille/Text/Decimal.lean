/-!
# Decimal digits

Natural numbers written with ASCII digits, padded with zeros where a field has a width,
and read back within a limit : `readDigits` takes digits alone, `readNatural` also a plus sign
in front of them and `readInteger` either sign.
-/

namespace Reveille.Text

/-- The digit of a number below 10. -/
def digitChar (n : Nat) : Char := Char.ofNat (48 + n % 10)

/-- The digits of a number, without leading zeros. -/
def digits (n : Nat) : List Char :=
  if n < 10 then [digitChar n] else digits (n / 10) ++ [digitChar n]
termination_by n
decreasing_by omega

/-- The digits of a number, with zeros in front up to a width. -/
def padded (width n : Nat) : List Char :=
  let ds := digits n
  List.replicate (width - ds.length) '0' ++ ds

/-- The digits of an integer behind its sign, padded so that sign and digits fill a width. -/
def paddedInt (width : Nat) (n : Int) : List Char :=
  if n < 0 then '-' :: padded (width - 1) n.natAbs else padded width n.natAbs

/-- An integer as digits behind a minus sign where it is negative. -/
def integer (n : Int) : List Char := paddedInt 0 n

/-- The value of an ASCII digit. -/
def digitValue? (c : Char) : Option Nat :=
  if '0' ≤ c ∧ c ≤ '9' then some (c.toNat - 48) else none

def isDigit (c : Char) : Bool := (digitValue? c).isSome

/-- Why a text is not an integer of a type. -/
inductive IntegerFault where
  | empty
  | badDigit
  | tooLarge
  | tooSmall
  deriving DecidableEq, Repr

def IntegerFault.message : IntegerFault → String
  | .empty => "cannot parse integer from empty string"
  | .badDigit => "invalid digit found in string"
  | .tooLarge => "number too large to fit in target type"
  | .tooSmall => "number too small to fit in target type"

/-- The number that digits continue, `acc` followed by the digits, up to `limit`. The first
character that is no digit or leaves the limit is the fault. -/
def readDigitsUpTo (limit : Nat) : Nat → List Char → Except IntegerFault Nat
  | acc, [] => .ok acc
  | acc, c :: cs =>
    match digitValue? c with
    | none => .error .badDigit
    | some d =>
      if acc * 10 + d ≤ limit then readDigitsUpTo limit (acc * 10 + d) cs else .error .tooLarge

/-- The number written by one or more digits, up to `limit`. -/
def readDigits (limit : Nat) : List Char → Except IntegerFault Nat
  | [] => .error .badDigit
  | cs => readDigitsUpTo limit 0 cs

/-- Digits behind an optional plus sign, of a value up to `limit`. -/
def readNatural (limit : Nat) : List Char → Except IntegerFault Nat
  | [] => .error .empty
  | '+' :: cs => readDigits limit cs
  | cs => readDigits limit cs

/-- Digits behind an optional sign, of a value from `-lower` to `upper`. -/
def readInteger (lower upper : Nat) : List Char → Except IntegerFault Int
  | '-' :: cs =>
    match readDigits lower cs with
    | .ok n => .ok (-(n : Int))
    | .error .tooLarge => .error .tooSmall
    | .error fault => .error fault
  | cs => (readNatural upper cs).map Int.ofNat

end Reveille.Text
