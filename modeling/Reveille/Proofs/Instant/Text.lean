import Reveille.Instant.Text
import Reveille.Proofs.Calendar
import Reveille.Proofs.Text.Decimal
import Reveille.Proofs.UnixScale

/-!
# Instants read back

Each scanner takes the field that it is for off the front of a text, and leaves what follows. So
the RFC 3339 form of an instant is read back to the instant (`Instant.parse_rfc3339`), in every year
of the supported range and in leap seconds too.
-/

namespace Reveille

open Text

namespace Scan

variable {ds rest : List Char} {c : Char} {n width : Nat}

/-! ## Digits and marks -/

/-- A run of digits up to the width is the number that it denotes, where it is full or no digit
follows. -/
theorem number_append (hds : AreDigits ds) (hne : ds ≠ []) (hlen : ds.length ≤ width)
    (hle : decimal 0 ds ≤ tenPow width) (rest : List Char)
    (hend : ds.length = width ∨ ∀ c ∈ rest.head?, isDigit c = false) :
    number width (ds ++ rest) = .ok (decimal 0 ds, rest) := by
  have htake : ((ds ++ rest).take width).takeWhile isDigit = ds := by
    rw [List.take_append, List.take_of_length_le hlen]
    refine takeWhile_isDigit hds fun c hc => ?_
    rcases hend with hend | hend
    · rw [hend, Nat.sub_self, List.take_zero] at hc
      cases hc
    · refine hend c ?_
      cases rest with
      | nil => simp at hc
      | cons d rest =>
        cases hk : width - ds.length with
        | zero => simp [hk] at hc
        | succ k => simpa [hk] using hc
  cases ds with
  | nil => exact absurd rfl hne
  | cons d ds =>
    have hd : isDigit d = true := hds d List.mem_cons_self
    unfold number
    rw [List.cons_append] at htake ⊢
    dsimp only
    rw [if_pos hd, htake, readDigitsUpTo_eq_ok hds hle]
    dsimp only
    rw [← List.cons_append, List.drop_left]

theorem trimStart_of_digits (hds : AreDigits ds) (hne : ds ≠ []) :
    trimStart (ds ++ rest) = ds ++ rest := by
  cases ds with
  | nil => exact absurd rfl hne
  | cons d ds =>
    have hd := not_isBlank_of_isDigit (hds d List.mem_cons_self)
    unfold trimStart
    rw [List.cons_append, List.dropWhile_cons_of_neg (by simp [hd])]

/-- A field of a full width is read, whatever follows. -/
theorem number_padded (hwidth : 0 < width) (h : n < tenPow width) (rest : List Char) :
    number width (padded width n ++ rest) = .ok (n, rest) := by
  have hlen := length_padded hwidth h
  have hread := number_append (areDigits_padded width n) (padded_ne_nil width n)
    (Nat.le_of_eq hlen) (by rw [decimal_padded]; omega) rest (.inl hlen)
  rwa [decimal_padded] at hread

theorem field_padded {least most : Nat} (hle : least ≤ n) (hge : n ≤ most) (h : n < 100)
    (rest : List Char) : field least most (padded 2 n ++ rest) = .ok (n, rest) := by
  unfold field
  rw [trimStart_of_digits (areDigits_padded 2 n) (padded_ne_nil 2 n), number_padded (by decide) h]
  exact if_pos ⟨hle, hge⟩

theorem mark_cons (hc : isBlank c = false) (rest : List Char) :
    mark c (c :: rest) = .ok ((), rest) := by
  unfold mark trimStart
  rw [List.dropWhile_cons_of_neg (by simp [hc])]
  exact if_pos rfl

theorem separator_cons (rest : List Char) : separator ('T' :: rest) = .ok ((), rest) := rfl

/-! ## Years -/

theorem signedYear_append (negative : Bool) (h : n ≤ yearLimit negative)
    (hrest : ∀ c ∈ rest.head?, isDigit c = false) :
    signedYear negative (padded 4 n ++ rest) =
      .ok (if negative then -(n : Int) else n, rest) := by
  have hds := areDigits_padded 4 n
  have htake := takeWhile_isDigit hds hrest
  have hread : readDigitsUpTo (yearLimit negative) 0 (padded 4 n) = .ok n := by
    rw [readDigitsUpTo_eq_ok hds (by rwa [decimal_padded]), decimal_padded]
  cases hp : padded 4 n with
  | nil => exact absurd hp (padded_ne_nil 4 n)
  | cons d ds =>
    rw [hp] at hds htake hread
    have hd : isDigit d = true := hds d List.mem_cons_self
    unfold signedYear
    rw [List.cons_append] at htake ⊢
    dsimp only
    rw [if_pos hd, htake, hread]
    dsimp only
    rw [← List.cons_append, List.drop_left]

theorem year_minus (rest : List Char) : year ('-' :: rest) = signedYear true rest := rfl

theorem year_plus (rest : List Char) : year ('+' :: rest) = signedYear false rest := rfl

/-- A year is read where no digit follows. -/
theorem year_append {y : Int} (h : y.natAbs ≤ 2147483647)
    (hrest : ∀ c ∈ rest.head?, isDigit c = false) :
    year (yearText y ++ rest) = .ok (y, rest) := by
  unfold yearText
  split
  · next hy =>
    have hds := areDigits_padded 4 y.toNat
    have hread : number 4 (padded 4 y.toNat ++ rest) = .ok (y.toNat, rest) :=
      number_padded (by decide) (by show _ < 10000; omega) rest
    unfold year
    rw [trimStart_of_digits hds (padded_ne_nil 4 _)]
    split
    · next hp =>
      exact absurd hp (padded_append_ne_cons 4 _ (by decide))
    · next hp =>
      exact absurd hp (padded_append_ne_cons 4 _ (by decide))
    · rw [hread]
      show Except.ok (((y.toNat : Nat) : Int), rest) = _
      rw [Int.toNat_of_nonneg hy.1]
  · next hy =>
    by_cases hneg : y < 0
    · have hread := signedYear_append (n := y.natAbs) true (by show _ ≤ 2147483648; omega) hrest
      rw [if_pos hneg, List.cons_append, year_minus, hread, if_pos rfl]
      exact congrArg (fun y => Except.ok (y, rest)) (by omega)
    · have hread := signedYear_append (n := y.natAbs) false h hrest
      rw [if_neg hneg, List.cons_append, year_plus, hread, if_neg Bool.false_ne_true]
      exact congrArg (fun y => Except.ok (y, rest)) (by omega)

/-! ## Fractions and offsets -/

/-- Up to nine digits behind a point are so many nanoseconds. -/
theorem fraction_append (hwidth : 0 < width) (hle : width ≤ 9) (h : n < tenPow width)
    (hrest : ∀ c ∈ rest.head?, isDigit c = false) :
    fraction ('.' :: padded width n ++ rest) = .ok (n * tenPow (9 - width), rest) := by
  have hlen := length_padded hwidth h
  have hbound : decimal 0 (padded width n) ≤ tenPow 9 := by
    rw [decimal_padded]
    exact Nat.le_of_lt (Nat.lt_of_lt_of_le h (Nat.pow_le_pow_right (by decide) hle))
  have hread := number_append (areDigits_padded width n) (padded_ne_nil width n)
    (Nat.le_trans (Nat.le_of_eq hlen) hle) hbound rest (.inr hrest)
  have hdrop : rest.dropWhile isDigit = rest := by
    cases rest with
    | nil => rfl
    | cons c rest => rw [List.dropWhile_cons_of_neg (by simp [hrest c rfl])]
  rw [decimal_padded] at hread
  show (number 9 (padded width n ++ rest) >>= fun x =>
    .ok (x.1 * tenPow (9 - ((padded width n ++ rest).length - x.2.length)),
      x.2.dropWhile isDigit)) = _
  rw [hread]
  show Except.ok (n * tenPow (9 - ((padded width n ++ rest).length - rest.length)),
    rest.dropWhile isDigit) = _
  rw [hdrop, List.length_append, Nat.add_sub_cancel, hlen]

theorem fraction_fractionText (h : n < secondNanos) :
    fraction (fractionText n ++ ['Z']) = .ok (n, ['Z']) := by
  have hz : ∀ c ∈ ['Z'].head?, isDigit c = false := by
    rintro c ⟨⟩
    rfl
  unfold secondNanos at h
  unfold fractionText
  split
  · next h0 =>
    rw [h0]
    rfl
  split
  · rw [fraction_append (by decide) (by decide) (by show _ < 1000; omega) hz]
    exact congrArg (fun n => Except.ok (n, ['Z'])) (by show _ * 1000000 = n; omega)
  split
  · rw [fraction_append (by decide) (by decide) (by show _ < 1000000; omega) hz]
    exact congrArg (fun n => Except.ok (n, ['Z'])) (by show _ * 1000 = n; omega)
  · rw [fraction_append (by decide) (by decide) (by show _ < 1000000000; omega) hz]
    exact congrArg (fun n => Except.ok (n, ['Z'])) (Nat.mul_one n)

theorem offset_utc : offset ['Z'] = .ok (0, []) := rfl

end Scan

/-! ## Instants -/

namespace Instant

variable (i : Instant)

/-- An instant is made up of what the clock of UTC shows. -/
theorem assemble_utc : Instant.assemble i.utc.date i.utc.hour i.utc.minute i.utc.secondOfMinute
    i.utc.fraction 0 = .ok i := by
  have hday : i.utc.date.toDays = i.second / 86400 := Date.toDays_ofDays _
  have hfirst := i.first_le
  have hlast := i.le_last
  have hnano := i.nano_lt
  have hleap := i.leap_last
  unfold assemble
  rw [hday, if_neg]
  · dsimp only
    have hparts : Instant.of? ((LocalTime.atMinute (i.second / 86400) i.utc.hour
          i.utc.minute).second + ((if i.utc.secondOfMinute = 60 then 59 else
            i.utc.secondOfMinute : Nat) : Int) - 0)
        (if i.utc.secondOfMinute = 60 then i.utc.fraction + secondNanos else i.utc.fraction) =
          some i := by
      rw [of?_eq_some_iff]
      unfold LocalTime.atMinute LocalTime.hour LocalTime.minute LocalTime.secondOfMinute
        LocalTime.secondOfDay LocalTime.fraction utc secondNanos at *
      dsimp only
      by_cases hlong : 1000000000 ≤ i.nano
      · have hminute : ((i.second % 86400).toNat % 60 + 1) = 60 := by omega
        rw [if_pos hlong, if_pos hminute, if_pos hminute]
        omega
      · have hminute : ¬ (i.second % 86400).toNat % 60 + 0 = 60 := by omega
        rw [if_neg hlong, if_neg hminute, if_neg hminute]
        omega
    rw [hparts]
  · rintro (hvalid | hrange | hoffset)
    · exact hvalid (Date.isValid_ofDays _)
    · refine hrange ?_
      unfold LocalTime.atMinute LocalTime.InRange firstSecond lastSecond
      unfold firstSecond at hfirst
      unfold lastSecond at hlast
      dsimp only
      omega
    · cases hoffset

theorem rfc3339_eq : i.rfc3339 = yearText i.utc.date.year ++ '-' :: (padded 2 i.utc.date.month ++
    '-' :: (padded 2 i.utc.date.day ++ 'T' :: (padded 2 i.utc.hour ++ ':' ::
      (padded 2 i.utc.minute ++ ':' :: (padded 2 i.utc.secondOfMinute ++
        (fractionText i.utc.fraction ++ ['Z'])))))) := by
  unfold rfc3339 Date.text LocalTime.clockText
  simp only [List.append_assoc, List.cons_append]

theorem daysInMonth_le (year : Int) (month : Nat) : Date.daysInMonth year month ≤ 31 := by
  unfold Date.daysInMonth
  repeat' split
  all_goals decide

/-- The years of the supported range have few enough digits for the scanner. -/
theorem natAbs_year_le : i.utc.date.year.natAbs ≤ 2147483647 := by
  have hyear : 146097 * (i.utc.date.year - 401) ≤ 400 * (i.second / 86400 + Date.epochDay) ∧
      400 * (i.second / 86400 + Date.epochDay) ≤ 146097 * (i.utc.date.year + 400) :=
    Date.ofDays_year_bounds (i.second / 86400)
  have hfirst := i.first_le
  have hlast := i.le_last
  unfold firstSecond at hfirst
  unfold lastSecond at hlast
  unfold Date.epochDay at hyear
  omega

/-- The RFC 3339 form of an instant denotes the instant. -/
theorem parse_rfc3339 : Instant.parse i.rfc3339 = .ok i := by
  obtain ⟨hmonth, hmonth', hday, hday'⟩ : i.utc.date.IsValid := Date.isValid_ofDays _
  have hdays := daysInMonth_le i.utc.date.year i.utc.date.month
  have hhour : i.utc.hour ≤ 23 := by
    unfold LocalTime.hour LocalTime.secondOfDay
    omega
  have hminute : i.utc.minute ≤ 59 := by
    unfold LocalTime.minute
    omega
  have hsecond : i.utc.secondOfMinute ≤ 60 := by
    unfold LocalTime.secondOfMinute
    split <;> omega
  have hfraction : i.utc.fraction < secondNanos := Nat.mod_lt _ (by decide)
  have hyear : ∀ rest, Scan.year (yearText i.utc.date.year ++ '-' :: rest) =
      .ok (i.utc.date.year, '-' :: rest) := by
    refine fun rest => Scan.year_append i.natAbs_year_le ?_
    rintro c ⟨⟩
    rfl
  unfold parse
  rw [rfc3339_eq]
  simp only [hyear, Scan.mark_cons (c := '-') rfl, Scan.mark_cons (c := ':') rfl,
    Scan.separator_cons, Scan.field_padded hmonth hmonth' (by omega),
    Scan.field_padded hday (Nat.le_trans hday' hdays) (by omega),
    Scan.field_padded (Nat.zero_le _) hhour (by omega),
    Scan.field_padded (Nat.zero_le _) hminute (by omega),
    Scan.field_padded (Nat.zero_le _) hsecond (by omega),
    Scan.fraction_fractionText hfraction, Scan.offset_utc, bind, Except.bind]
  exact i.assemble_utc

end Instant

end Reveille
