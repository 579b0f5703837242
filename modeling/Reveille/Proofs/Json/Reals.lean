import Reveille.Proofs.Json.Scalars

/-!
# Decimals read back

A number with a point or an exponent is read as the decimal whose significand are all its digits
(`Numeral.number_reads_point`, `Numeral.number_reads_exponent`). What is written of a decimal that
is not too long is such a number, positional or not, and so it is read as that decimal
(`decimalText_reads`); a digit without decimals is written with a zero behind its point
(`decimalText_digit_reads`).
-/

namespace Reveille.Json

open Text Cursor

variable {c : Cursor} {whole fraction tail rest : List Char} {n k : Nat} {negative : Bool}

namespace Numeral

/-! ## Numbers with a point or an exponent -/

theorem fractionDigits_eq (h : c.rest = fraction ++ rest) (hfraction : AreDigits fraction)
    (hne : fraction ≠ []) (hrest : NoDigit rest) :
    fractionDigits c = .ok (fraction, past c fraction.length) := by
  unfold fractionDigits
  rw [digitsOf_eq h hfraction hrest]
  cases fraction with
  | nil => exact absurd rfl hne
  | cons d ds => rfl

/-- The digits behind a point, if there are any. -/
def pointText (fraction : List Char) : List Char :=
  if fraction = [] then [] else '.' :: fraction

/-- All digits belong to the significand, and those behind the point lower the exponent. -/
theorem number_eq (negative : Bool) (h : c.rest = whole ++ pointText fraction ++ tail)
    (hwhole : IsWhole whole) (hfraction : AreDigits fraction) (htail : NoDigit tail)
    (hpoint : fraction = [] → ∃ tail', tail = 'e' :: tail')
    (hlimit : decimal 0 (whole ++ fraction) ≤ significandLimit) :
    ∃ c', c'.rest = tail ∧ number negative c =
      withExponent negative (decimal 0 (whole ++ fraction)) (-fraction.length) c' := by
  have hsum := accumulate_of_le (Nat.le_trans (le_decimal (decimal 0 whole) fraction)
    (decimal_append 0 whole fraction ▸ hlimit))
  rw [List.append_assoc] at h
  cases fraction with
  | nil =>
    obtain ⟨tail', rfl⟩ := hpoint rfl
    have hrest := rest_past h
    refine ⟨_, hrest, ?_⟩
    unfold number
    rw [wholeDigits_eq h hwhole htail]
    simp only [bind, Except.bind, hsum]
    rw [hrest, List.append_nil]
    rfl
  | cons d ds =>
    have hrest := rest_past h
    have hnext := rest_next hrest
    have hmore := accumulate_of_le (decimal_append 0 whole (d :: ds) ▸ hlimit)
    refine ⟨_, rest_past hnext, ?_⟩
    unfold number
    rw [wholeDigits_eq h hwhole (by rintro _ ⟨⟩; rfl)]
    simp only [bind, Except.bind, hsum]
    rw [hrest]
    show (fractionDigits _ >>= _) = _
    rw [fractionDigits_eq hnext hfraction (List.cons_ne_nil d ds) htail]
    simp only [bind, Except.bind, hmore]
    rw [decimal_append]
    show withExponent negative _ (0 - ((d :: ds).length : Int)) _ = _
    rw [Int.zero_sub]

/-- The sign of an exponent is written in any case. -/
def exponentText (z : Int) : List Char := (if 0 ≤ z then ['+'] else []) ++ integer z

theorem signOf_exponentText {z : Int} (h : c.rest = exponentText z ++ rest) :
    ∃ c', signOf c = (decide (z < 0), c') ∧ c'.rest = digits z.natAbs ++ rest := by
  unfold exponentText at h
  by_cases hz : 0 ≤ z
  · rw [if_pos hz, integer_of_nonneg hz] at h
    refine ⟨c.next, ?_, ?_⟩
    · unfold signOf
      rw [h]
      simp [Int.not_lt.mpr hz]
    · rw [show z.natAbs = z.toNat by omega]
      exact rest_next h
  · rw [if_neg hz, integer_of_neg (by omega)] at h
    refine ⟨c.next, ?_, rest_next h⟩
    unfold signOf
    rw [h]
    simp [Int.not_le.mp hz]

theorem exponent_reads (significand : Nat) {start z : Int} (hz : z.natAbs ≤ exponentLimit)
    (hlow : -2147483648 ≤ start + z) (hhigh : start + z ≤ 2147483647) :
    Take.Reads (exponent significand start) (exponentText z) (some (start + z)) := by
  intro c rest hc hrest
  obtain ⟨c₁, hsign, hc₁⟩ := signOf_exponentText hc
  have hsum : accumulate exponentLimit 0 (digits z.natAbs) = (z.natAbs, []) := by
    rw [accumulate_of_le (by rwa [decimal_digits]), decimal_digits]
  refine ⟨_, ?_, rest_past hc₁⟩
  unfold exponent
  rw [hsign]
  dsimp only
  rw [digitsOf_eq hc₁ (areDigits_digits z.natAbs) hrest.noDigit]
  have hvalue : (if decide (z < 0) = true then start - z.natAbs else start + z.natAbs) =
      start + z := by
    by_cases hneg : z < 0
    · rw [if_pos (decide_eq_true hneg)]
      omega
    · rw [if_neg (by simpa using hneg)]
      omega
  split
  · next hnil => exact absurd hnil (digits_ne_nil z.natAbs)
  · rw [hsum]
    dsimp only
    rw [hvalue, show max (-2147483648) (min 2147483647 (start + z)) = start + z by omega]

/-! ## Numbers that are read -/

theorem withExponent_of_ends {significand : Nat} {start : Int} (h : Ends c.rest) :
    withExponent negative significand start c = realAt negative significand start c := by
  unfold withExponent
  cases hrest : c.rest with
  | nil => rfl
  | cons ch cs =>
    obtain ⟨-, -, he, hE⟩ := h ch (by rw [hrest]; rfl)
    exact if_neg (by simp [he, hE])

variable {x : Binary Format.binary64}

/-- A number with a point is read as the decimal of its digits. -/
theorem number_reads_point (hwhole : IsWhole whole) (hfraction : AreDigits fraction)
    (hne : fraction ≠ []) (hlimit : decimal 0 (whole ++ fraction) ≤ significandLimit)
    (hx : Binary.ofDecimal? .binary64 negative (decimal 0 (whole ++ fraction)) (-fraction.length) =
      some x) : Take.Reads (number negative) (whole ++ '.' :: fraction) (.real x) := by
  intro c rest hc hrest
  have hc' : c.rest = whole ++ pointText fraction ++ rest := by
    unfold pointText
    rw [hc, if_neg hne]
  obtain ⟨c₁, hc₁, hnumber⟩ := number_eq negative hc' hwhole hfraction hrest.noDigit
    (fun hnil => absurd hnil hne) hlimit
  refine ⟨c₁, ?_, hc₁⟩
  rw [hnumber, withExponent_of_ends (hc₁ ▸ hrest)]
  unfold realAt
  rw [hx]

/-- A number with an exponent is read as the decimal of its digits. -/
theorem number_reads_exponent {z : Int} (hwhole : IsWhole whole) (hfraction : AreDigits fraction)
    (hlimit : decimal 0 (whole ++ fraction) ≤ significandLimit)
    (hz : z.natAbs ≤ exponentLimit) (hlow : -2147483648 ≤ -fraction.length + z)
    (hhigh : -fraction.length + z ≤ 2147483647)
    (hx : Binary.ofDecimal? .binary64 negative (decimal 0 (whole ++ fraction))
      (-fraction.length + z) = some x) :
    Take.Reads (number negative) (whole ++ pointText fraction ++ 'e' :: exponentText z)
      (.real x) := by
  intro c rest hc hrest
  rw [List.append_assoc] at hc
  obtain ⟨c₁, hc₁, hnumber⟩ := number_eq negative hc hwhole hfraction
    (by rintro _ ⟨⟩; rfl) (fun _ => ⟨_, rfl⟩) hlimit
  obtain ⟨c₂, hexponent, hc₂⟩ := exponent_reads (decimal 0 (whole ++ fraction)) hz hlow hhigh
    c₁.next rest (rest_next hc₁) hrest
  refine ⟨c₂, ?_, hc₂⟩
  rw [hnumber]
  unfold withExponent
  rw [hc₁]
  simp only [List.cons_append, true_or, if_true, bind, Except.bind, hexponent]
  unfold realAt
  rw [hx]

theorem IsWhole.take (h : IsWhole whole) (hk : 0 < k) : IsWhole (whole.take k) := by
  obtain ⟨d, ds, rfl, hzero⟩ := h.noZeros
  refine ⟨fun ch hch => h.areDigits ch (List.mem_of_mem_take hch), d, ds.take (k - 1), ?_, ?_⟩
  · rw [List.take_cons hk]
  · intro hd
    rw [hzero hd, List.take_nil]

/-- The digits of a number with a point anywhere behind the first of them. -/
theorem digits_split (n : Nat) (hk : 0 < k) : IsWhole ((digits n).take k) ∧
    AreDigits ((digits n).drop k) ∧ decimal 0 ((digits n).take k ++ (digits n).drop k) = n := by
  refine ⟨(isWhole_digits n).take hk, fun ch hch => ?_, ?_⟩
  · exact areDigits_digits n ch (List.mem_of_mem_drop hch)
  · rw [List.take_append_drop, decimal_digits]

theorem isWhole_zero : IsWhole ['0'] := by
  have hzero := isWhole_digits 0
  rw [digits_of_lt (by decide)] at hzero
  exact hzero

end Numeral

/-! ## What is written of decimals -/

open Numeral

variable {x : Binary Format.binary64}

theorem scalarReads_whole {number : Number} (hwhole : IsWhole whole)
    (h : Take.Reads (Numeral.number negative) (whole ++ tail) number) :
    ScalarReads (if negative then '-' :: (whole ++ tail) else whole ++ tail) number.value := by
  obtain ⟨d, ds, rfl, -⟩ := hwhole.noZeros
  exact scalarReads_number negative (List.cons_append) (hwhole.areDigits d List.mem_cons_self) h

/-- A positional text with digits behind the point is read as the decimal. -/
theorem positionalText_reads (hk : 0 < k) (hn : n ≤ significandLimit)
    (hx : Binary.ofDecimal? .binary64 negative n (-k) = some x) :
    ∃ whole tail, Layout.json.positionalText (digits n) ((digits n).length + -k) = whole ++ tail ∧
      IsWhole whole ∧ Take.Reads (number negative) (whole ++ tail) (.real x) := by
  unfold Layout.positionalText
  split
  · next hpoint =>
    -- Zeros stand between the point and the digits.
    have hzeros : (-((digits n).length + -(k : Int))).toNat = k - (digits n).length := by omega
    have hpadded : List.replicate (k - (digits n).length) '0' ++ digits n = padded k n := rfl
    have hvalue : decimal 0 (['0'] ++ padded k n) = n := decimal_padded k n
    have hlength : (padded k n).length = k := by
      rw [← hpadded, List.length_append, List.length_replicate]
      omega
    refine ⟨['0'], '.' :: padded k n, by rw [hzeros, ← hpadded]; rfl, isWhole_zero, ?_⟩
    refine number_reads_point isWhole_zero (areDigits_padded k n) (padded_ne_nil k n)
      (hvalue.symm ▸ hn) ?_
    rw [hvalue, hlength]
    exact hx
  · next hpoint =>
    rw [if_pos (by omega)]
    generalize hj : ((digits n).length + -(k : Int)).toNat = j
    obtain ⟨hwhole, hfraction, hvalue⟩ := digits_split n (show 0 < j by omega)
    have hlength : ((digits n).drop j).length = k := by
      rw [List.length_drop]
      omega
    refine ⟨_, _, rfl, hwhole, number_reads_point hwhole hfraction ?_ (hvalue.symm ▸ hn) ?_⟩
    · exact List.ne_nil_of_length_pos (hlength ▸ hk)
    · rw [hvalue, hlength]
      exact hx

/-- A text with an exponent is read as the decimal. -/
theorem exponentText_reads (hk : k ≤ exponentLimit) (hn : n ≤ significandLimit)
    (hx : Binary.ofDecimal? .binary64 negative n (-k) = some x) :
    ∃ whole tail, Layout.json.exponentText (digits n) ((digits n).length + -k - 1) =
        whole ++ tail ∧
      IsWhole whole ∧ Take.Reads (number negative) (whole ++ tail) (.real x) := by
  obtain ⟨hwhole, hfraction, hvalue⟩ := digits_split n Nat.one_pos
  have hlength : (digits n).length ≤ 20 :=
    length_digits_le 20 (by decide) (Nat.lt_of_le_of_lt hn (by decide))
  have hpos : 0 < (digits n).length := List.length_pos_iff.mpr (digits_ne_nil n)
  have hexponent : -(((digits n).drop 1).length : Int) + ((digits n).length + -k - 1) = -k := by
    rw [List.length_drop]
    omega
  have htext : Layout.json.exponentText (digits n) ((digits n).length + -k - 1) =
      (digits n).take 1 ++ (pointText ((digits n).drop 1) ++
        'e' :: Numeral.exponentText ((digits n).length + -k - 1)) := by
    have hshort : (digits n).drop 1 = [] ↔ (digits n).length ≤ 1 := List.drop_eq_nil_iff
    simp only [Layout.exponentText, Layout.json, pointText, hshort, Numeral.exponentText,
      Bool.true_and, decide_eq_true_eq, List.append_assoc, List.cons_append]
  unfold exponentLimit at hk
  refine ⟨_, _, htext, hwhole, ?_⟩
  rw [← List.append_assoc]
  refine number_reads_exponent hwhole hfraction (hvalue.symm ▸ hn) ?_ ?_ ?_ ?_
  · unfold exponentLimit
    omega
  · rw [hexponent]
    omega
  · rw [hexponent]
    omega
  · rw [hexponent, hvalue]
    exact hx

/-- What is written of a decimal behind its sign. -/
def bodyText (d : Shortest.Decimal) : List Char :=
  let point := (digits d.digits).length + d.exponent
  if d.digits = 0 ∨ (-5 ≤ point - 1 ∧ point - 1 < 16) then
    Layout.json.positionalText (digits d.digits) point
  else Layout.json.exponentText (digits d.digits) (point - 1)

theorem decimalText_eq (negative : Bool) (d : Shortest.Decimal) :
    Layout.json.decimalText negative d = if negative then '-' :: bodyText d else bodyText d := rfl

/-- What is written of a decimal is read as that decimal. -/
theorem decimalText_reads (hk : 0 < k) (hk' : k ≤ exponentLimit) (hn : n ≤ significandLimit)
    (hx : Binary.ofDecimal? .binary64 negative n (-k) = some x) :
    ScalarReads (Layout.json.decimalText negative ⟨n, -k⟩) (.real x) := by
  have hbody : ∃ whole tail, bodyText ⟨n, -k⟩ = whole ++ tail ∧ IsWhole whole ∧
      Take.Reads (number negative) (whole ++ tail) (.real x) := by
    unfold bodyText
    dsimp only
    split
    · exact positionalText_reads hk hn hx
    · exact exponentText_reads hk' hn hx
  obtain ⟨whole, tail, htext, hwhole, hreads⟩ := hbody
  rw [decimalText_eq, htext]
  exact scalarReads_whole hwhole hreads

/-- What is written of a digit is read as the digit with one decimal. -/
theorem decimalText_digit_reads (hn : n < 10)
    (hx : Binary.ofDecimal? .binary64 negative (n * 10) (-1) = some x) :
    ScalarReads (Layout.json.decimalText negative ⟨n, 0⟩) (.real x) := by
  have hbody : bodyText ⟨n, 0⟩ = digits n ++ ['.', '0'] := by
    unfold bodyText
    dsimp only
    rw [digits_of_lt hn]
    rw [List.length_singleton]
    exact if_pos (.inr (by decide))
  have hvalue : decimal 0 (digits n ++ ['0']) = n * 10 := by
    rw [decimal_append, decimal_digits]
    rfl
  have hzero : AreDigits ['0'] := isWhole_zero.areDigits
  rw [decimalText_eq, hbody]
  refine scalarReads_whole (isWhole_digits n)
    (number_reads_point (isWhole_digits n) hzero (List.cons_ne_nil _ _) ?_ ?_)
  · rw [hvalue]
    exact Nat.le_trans (Nat.mul_le_mul_right 10 (Nat.le_of_lt hn)) (by decide)
  · rw [hvalue]
    exact hx

end Reveille.Json
