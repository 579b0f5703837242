import Reveille.Proofs.Json.Reads

/-!
# Scalars read back

What is written of a string is read as the string, whatever its characters (`string_reads`), and
what is written of an integer that fits 64 bits as the integer (`number_reads`). So a scalar is read
back by the reader that its first character picks (`Value.scalar_reads`), and a reader for scalars
takes what it accepts (`Reader.reads_ofScalar`). Real numbers are left out.
-/

namespace Reveille.Json

open Text Cursor

variable {c : Cursor} {ch : Char} {cs rest : List Char} {n acc limit : Nat}

/-! ## Strings -/

namespace Literal

theorem hexValue?_hexDigit : ∀ n < 16, hexValue? (hexDigit n) = some n := by
  decide

/-- How a character stands in a string : behind a backslash as one letter, by its number, or as
it is. -/
theorem escapedChar_cases (ch : Char) :
    (∃ e, shortEscape? e = some ch ∧ escapedChar ch = ['\\', e]) ∨
    (ch.toNat < 0x20 ∧ escapedChar ch =
      ['\\', 'u', '0', '0', hexDigit (ch.toNat / 16), hexDigit (ch.toNat % 16)]) ∨
    (ch ≠ '"' ∧ ch ≠ '\\' ∧ ¬ ch.toNat < 0x20 ∧ escapedChar ch = [ch]) := by
  unfold escapedChar
  by_cases hquote : ch = '"'
  · exact .inl ⟨'"', by rw [hquote]; rfl, if_pos hquote⟩
  rw [if_neg hquote]
  by_cases hslash : ch = '\\'
  · exact .inl ⟨'\\', by rw [hslash]; rfl, if_pos hslash⟩
  rw [if_neg hslash]
  by_cases hb : ch = '\x08'
  · exact .inl ⟨'b', hb ▸ rfl, if_pos hb⟩
  rw [if_neg hb]
  by_cases hf : ch = '\x0c'
  · exact .inl ⟨'f', hf ▸ rfl, if_pos hf⟩
  rw [if_neg hf]
  by_cases hn : ch = '\n'
  · exact .inl ⟨'n', hn ▸ rfl, if_pos hn⟩
  rw [if_neg hn]
  by_cases hr : ch = '\r'
  · exact .inl ⟨'r', hr ▸ rfl, if_pos hr⟩
  rw [if_neg hr]
  by_cases ht : ch = '\t'
  · exact .inl ⟨'t', ht ▸ rfl, if_pos ht⟩
  rw [if_neg ht]
  by_cases hlt : ch.toNat < 0x20
  · exact .inr (.inl ⟨hlt, if_pos hlt⟩)
  · exact .inr (.inr ⟨hquote, hslash, hlt, if_neg hlt⟩)

theorem fourHex_hexDigit (h : c.rest = '0' :: '0' :: hexDigit (n / 16) :: hexDigit (n % 16) :: rest)
    (hn : n < 256) : fourHex c = .ok (n, c.next.next.next.next) := by
  have hzero : hexValue? '0' = some 0 := rfl
  unfold fourHex
  rw [h]
  dsimp only
  rw [hzero, hexValue?_hexDigit (n / 16) (by omega), hexValue?_hexDigit (n % 16) (by omega)]
  dsimp only
  rw [show ((0 * 16 + 0) * 16 + n / 16) * 16 + n % 16 = n by omega]

/-- What stands for a character is taken as the character. -/
theorem stringChar_escapedChar (h : c.rest = escapedChar ch ++ rest) :
    ∃ c', stringChar c = .ok (some ch, c') ∧ c'.rest = rest := by
  obtain ⟨e, he, hch⟩ | ⟨hlt, hch⟩ | ⟨hquote, hslash, hlt, hch⟩ := escapedChar_cases ch
  all_goals rw [hch] at h
  · have hu : e ≠ 'u' := by
      rintro rfl
      cases he
    have hnext : c.next.rest = e :: rest := rest_next h
    refine ⟨c.next.next, ?_, rest_next hnext⟩
    simp only [stringChar, h, escape, hnext, if_neg hu, he, List.cons_append, bind, Except.bind]
    rfl
  · have hnext := rest_next (rest_next h)
    have hhex := fourHex_hexDigit (n := ch.toNat) hnext (by omega)
    refine ⟨_, ?_, rest_next (rest_next (rest_next (rest_next hnext)))⟩
    simp only [stringChar, h, escape, rest_next h, unicodeEscape, hhex, List.cons_append, bind,
      Except.bind, if_neg (show ¬ (0xDC00 ≤ ch.toNat ∧ ch.toNat ≤ 0xDFFF) by omega),
      if_neg (show ¬ (0xD800 ≤ ch.toNat ∧ ch.toNat ≤ 0xDBFF) by omega), Char.ofNat_toNat]
    rfl
  · refine ⟨c.next, ?_, rest_next h⟩
    simp only [stringChar, h, List.singleton_append, if_neg hquote, if_neg hslash, if_neg hlt]

theorem stringChar_quote (h : c.rest = '"' :: rest) : stringChar c = .ok (none, c.next) := by
  unfold stringChar
  rw [h]
  rfl

/-- What is written of a string is read as the string. -/
theorem string_reads : ∀ s : List Char,
    Take.Reads Literal.string (s.flatMap escapedChar ++ ['"']) s
  | [], c, rest, hc, _ => by
    refine ⟨c.next, ?_, rest_next hc⟩
    rw [Literal.string]
    split <;> simp_all [stringChar_quote hc]
  | ch :: s, c, rest, hc, hrest => by
    rw [List.flatMap_cons, List.append_assoc, List.append_assoc] at hc
    obtain ⟨c₁, hchar, hc₁⟩ := stringChar_escapedChar hc
    obtain ⟨c₂, hrun, hc₂⟩ := string_reads s c₁ rest (by rw [hc₁, List.append_assoc]) hrest
    refine ⟨c₂, ?_, hc₂⟩
    rw [Literal.string]
    split <;> simp_all

/-- The letters of a word are taken. -/
theorem word_reads : ∀ ws : List Char, Take.Reads (word ws) ws ()
  | [], c, rest, hc, _ => ⟨c, rfl, hc⟩
  | w :: ws, c, rest, hc, hrest => by
    obtain ⟨c', hrun, hc'⟩ := word_reads ws c.next rest (rest_next hc) hrest
    refine ⟨c', ?_, hc'⟩
    unfold word
    rw [hc]
    exact (if_pos rfl).trans hrun

end Literal

/-! ## Integers -/

namespace Numeral

/-- A number has no zeros in front. -/
theorem digits_eq_cons (n : Nat) : ∃ d ds, digits n = d :: ds ∧ (d = '0' → ds = []) := by
  induction n using digits_induction with
  | small n h => exact ⟨_, _, digits_of_lt h, fun _ => rfl⟩
  | step n h ih =>
    obtain ⟨d, ds, hds, hzero⟩ := ih
    refine ⟨d, ds ++ [digitChar n], by rw [digits_of_le h, hds]; rfl, ?_⟩
    rintro rfl
    have hvalue := decimal_digits (n / 10)
    rw [hds, hzero rfl, show decimal 0 ['0'] = 0 from rfl] at hvalue
    omega

theorem accumulate_of_le (h : decimal acc cs ≤ limit) :
    accumulate limit acc cs = (decimal acc cs, []) := by
  induction cs generalizing acc with
  | nil => rfl
  | cons d ds ih =>
    unfold accumulate
    dsimp only
    rw [if_pos (Nat.le_trans (le_decimal (acc * 10 + (d.toNat - 48)) ds) h)]
    exact ih h

/-- The digits of a whole number : one zero, or a run that starts with another digit. -/
structure IsWhole (cs : List Char) : Prop where
  areDigits : AreDigits cs
  noZeros : ∃ d ds, cs = d :: ds ∧ (d = '0' → ds = [])

theorem isWhole_digits (n : Nat) : IsWhole (digits n) := ⟨areDigits_digits n, digits_eq_cons n⟩

theorem rest_past (h : c.rest = cs ++ rest) : (past c cs.length).rest = rest := by
  unfold past
  rw [h, List.drop_left]

theorem digitsOf_eq (h : c.rest = cs ++ rest) (hcs : AreDigits cs) (hrest : NoDigit rest) :
    digitsOf c = cs := by
  unfold digitsOf
  rw [h]
  exact takeWhile_isDigit hcs hrest

theorem wholeDigits_eq (h : c.rest = cs ++ rest) (hcs : IsWhole cs) (hrest : NoDigit rest) :
    wholeDigits c = .ok (cs, past c cs.length) := by
  obtain ⟨d, ds, rfl, hzero⟩ := hcs.noZeros
  unfold wholeDigits
  rw [digitsOf_eq h hcs.areDigits hrest]
  exact if_neg fun hlead => hlead.2 (hzero hlead.1)

/-- The digits of a number that fits 64 bits are read as a whole number. -/
theorem number_reads (negative : Bool) (hn : n ≤ significandLimit) :
    Take.Reads (number negative) (digits n) (wholeNumber negative n) := by
  intro c rest hc hrest
  have hpast : (past c (digits n).length).rest = rest := rest_past hc
  have hsum : accumulate significandLimit 0 (digits n) = (n, []) := by
    rw [accumulate_of_le (by rwa [decimal_digits]), decimal_digits]
  refine ⟨_, ?_, hpast⟩
  unfold number
  rw [wholeDigits_eq hc (isWhole_digits n) hrest.noDigit]
  simp only [bind, Except.bind, hsum, hpast]
  cases rest with
  | nil => rfl
  | cons ch rest =>
    obtain ⟨-, hpoint, he, hE⟩ := hrest ch rfl
    split
    · next heq =>
      cases heq
      exact absurd rfl hpoint
    · next heq =>
      cases heq
      simp only [he, hE, or_self, if_false, if_true]
    · next heq => cases heq

theorem padded_zero (n : Nat) : padded 0 n = digits n := by
  unfold padded
  dsimp only
  rw [Nat.zero_sub]
  rfl

theorem integer_of_nonneg {z : Int} (h : 0 ≤ z) : integer z = digits z.toNat := by
  unfold integer paddedInt
  rw [if_neg (by omega), padded_zero, show z.natAbs = z.toNat by omega]

theorem integer_of_neg {z : Int} (h : z < 0) : integer z = '-' :: digits z.natAbs := by
  unfold integer paddedInt
  rw [if_pos h, padded_zero]

end Numeral

/-! ## Scalars -/

/-- A scalar, but no real number. An integer fits 64 bits. -/
def Value.IsScalar : Value → Prop
  | .null | .bool _ | .string _ => True
  | .integer z => -9223372036854775808 ≤ z ∧ z ≤ 18446744073709551615
  | .real _ | .array _ | .object _ => False

theorem opens_of_isDigit (h : isDigit ch = true) : Opens (ch :: cs) := by
  refine ⟨ch, cs, rfl, ?_, ?_⟩
  · rintro (rfl | rfl | rfl | rfl) <;> exact absurd h (by decide)
  · rintro rfl
    exact absurd h (by decide)

/-- A text that is read as a value by the reader that its first character picks. -/
def ScalarReads (cs : List Char) (v : Value) : Prop :=
  ∃ ch tail r, cs = ch :: tail ∧ Opens cs ∧ scalar? ch = some r ∧ Take.Reads r.run cs v

theorem scalarReads_word {value : Value} (hopens : Opens (ch :: cs))
    (hch : scalar? ch = some (.word cs value)) : ScalarReads (ch :: cs) value :=
  ⟨ch, cs, _, rfl, hopens, hch, (Reader.reads_behind (Literal.word_reads cs) _).map _⟩

theorem scalar?_of_isDigit (h : isDigit ch = true) : scalar? ch = some .natural := by
  -- No digit is one of the characters that are asked for first.
  have hne : ∀ e, isDigit e = false → ch ≠ e := by
    rintro e he rfl
    rw [he] at h
    cases h
  unfold scalar?
  rw [if_neg (hne _ rfl), if_neg (hne _ rfl), if_neg (hne _ rfl), if_neg (hne _ rfl), if_pos h]

/-- What the digits of a number are read as is read with its sign in front of them. -/
theorem scalarReads_number (negative : Bool) {number : Numeral.Number} {d : Char} {ds : List Char}
    (hcs : cs = d :: ds) (hd : isDigit d = true)
    (h : Take.Reads (Numeral.number negative) cs number) :
    ScalarReads (if negative then '-' :: cs else cs) number.value := by
  cases negative with
  | false =>
    have hreads : Take.Reads Reader.natural.run cs number.value :=
      Take.Reads.map (r := ⟨_, Numeral.number_consumes false⟩) h _
    exact ⟨d, ds, .natural, hcs, hcs ▸ opens_of_isDigit hd, scalar?_of_isDigit hd, hreads⟩
  | true =>
    exact ⟨'-', cs, .negative, rfl, ⟨_, _, rfl, by decide, by decide⟩, rfl,
      (Reader.reads_behind h fun h => Nat.le_of_lt (Numeral.number_consumes true h)).map _⟩

theorem scalarReads_natural (hn : n ≤ Numeral.significandLimit) :
    ScalarReads (digits n) (.integer n) := by
  obtain ⟨d, ds, hds, -⟩ := Numeral.digits_eq_cons n
  exact scalarReads_number false hds (areDigits_digits n d (hds ▸ List.mem_cons_self))
    (Numeral.number_reads false hn)

theorem scalarReads_negative (hpos : 1 ≤ n) (hn : n ≤ 9223372036854775808) :
    ScalarReads ('-' :: digits n) (.integer (-(n : Int))) := by
  obtain ⟨d, ds, hds, -⟩ := Numeral.digits_eq_cons n
  have hnumber : Numeral.wholeNumber true n = .negative n := by
    unfold Numeral.wholeNumber
    rw [if_neg (by decide), if_pos ⟨hpos, hn⟩]
  have hreads := Numeral.number_reads true (n := n) (Nat.le_trans hn (by decide))
  rw [hnumber] at hreads
  exact scalarReads_number true hds (areDigits_digits n d (hds ▸ List.mem_cons_self)) hreads

theorem scalarReads_string (s : String) : ScalarReads (stringText s) (.string s) := by
  have hbody : Take.Reads (Reader.behind Literal.string _).run (stringText s) s.toList :=
    Reader.reads_behind (Literal.string_reads s.toList)
      fun h => Nat.le_of_lt (Literal.string_consumes h)
  have hreads := hbody.map fun cs => Value.string (String.ofList cs)
  rw [String.ofList_toList] at hreads
  exact ⟨'"', _, .text, rfl, ⟨_, _, rfl, by decide, by decide⟩, rfl, hreads⟩

/-- What is written of a scalar is read back by the reader that its first character picks. -/
theorem Value.scalar_reads {v : Value} (hv : v.IsScalar) (style : Style) (depth : Nat) :
    ScalarReads (v.write style depth) v := by
  cases v with
  | null => exact scalarReads_word ⟨_, _, rfl, by decide, by decide⟩ rfl
  | bool b =>
    cases b
    · exact scalarReads_word ⟨_, _, rfl, by decide, by decide⟩ rfl
    · exact scalarReads_word ⟨_, _, rfl, by decide, by decide⟩ rfl
  | integer z =>
    obtain ⟨hlower, hupper⟩ := hv
    unfold Value.write
    by_cases hz : z < 0
    · rw [Numeral.integer_of_neg hz, show z = -(z.natAbs : Int) by omega, Int.natAbs_neg,
        Int.natAbs_natCast]
      exact scalarReads_negative (by omega) (by omega)
    · rw [Numeral.integer_of_nonneg (by omega)]
      have hread := scalarReads_natural (n := z.toNat) (by unfold Numeral.significandLimit; omega)
      rwa [Int.toNat_of_nonneg (by omega)] at hread
  | string s => exact scalarReads_string s
  | real _ => exact hv.elim
  | array _ => exact hv.elim
  | object _ => exact hv.elim

/-- A reader for scalars takes what is written of a scalar that it accepts. -/
theorem Reader.reads_ofScalar {α : Type} {wanted : String} {take : Value → Except Problem α}
    {v : Value} {a : α} (h : ScalarReads cs v) (ha : take v = .ok a) :
    (Reader.ofScalar wanted take).Reads cs a := by
  obtain ⟨ch, tail, r, rfl, hopens, hscalar, hreads⟩ := h
  refine reads_dispatch hopens ?_
  rw [hscalar]
  exact hreads.check ha

end Reveille.Json
