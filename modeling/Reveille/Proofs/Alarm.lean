import Mathlib.Algebra.Group.Nat.Defs
import Reveille.Alarm
import Reveille.Proofs.Text.Decimal

/-!
# Times of day read from text

A text is stripped of the blanks at its two ends (`Text.IsStripped`); what is left has the form of a
time if it is a number, a colon and a number (`Alarm.IsTimeText`). Exactly such texts are read as an
hour and a minute, as long as both are words of 32 bits (`Alarm.readSides_eq_some_iff`). So an alarm
is read from the times that a clock shows, other times are refused with their hour and minute, and
every other text is refused as it stands (`Alarm.reads_times`).
-/

namespace Reveille

open Text

/-! ## Blanks around a text -/

namespace Text

/-- The text is `t` with blanks around it, and `t` neither begins nor ends with a blank. -/
def IsStripped (cs t : List Char) : Prop :=
  ∃ before after, cs = before ++ t ++ after ∧
    (∀ c ∈ before, isBlank c = true) ∧ (∀ c ∈ after, isBlank c = true) ∧
    (∀ c ∈ t.head?, isBlank c = false) ∧ ∀ c ∈ t.getLast?, isBlank c = false

/-- A text is its blanks at the start and the rest, which begins with no blank. -/
theorem exists_trimStart (cs : List Char) :
    ∃ blanks, cs = blanks ++ trimStart cs ∧ (∀ c ∈ blanks, isBlank c = true) ∧
      ∀ c ∈ (trimStart cs).head?, isBlank c = false := by
  refine ⟨cs.takeWhile isBlank, List.takeWhile_append_dropWhile.symm,
    List.all_eq_true.mp List.all_takeWhile, fun c hc => ?_⟩
  have := List.head?_dropWhile_not isBlank cs
  unfold trimStart at hc
  rw [Option.mem_def.mp hc] at this
  simpa using this

theorem isStripped_trim (cs : List Char) : IsStripped cs (trim cs) := by
  obtain ⟨before, hcs, hbefore, hhead⟩ := exists_trimStart cs
  obtain ⟨after, hrest, hafter, hlast⟩ := exists_trimStart (trimStart cs).reverse
  have hsplit : trimStart cs = trim cs ++ after.reverse := by
    rw [← List.reverse_inj, hrest, List.reverse_append, List.reverse_reverse, trim,
      List.reverse_reverse]
  refine ⟨before, after.reverse, ?_, hbefore, fun c hc => hafter c (List.mem_reverse.mp hc), ?_, ?_⟩
  · rw [List.append_assoc, ← hsplit]
    exact hcs
  · intro c hc
    refine hhead c ?_
    rw [hsplit, List.head?_append, Option.mem_def.mp hc]
    rfl
  · unfold trim
    rwa [List.getLast?_reverse]

end Text

namespace Alarm

/-! ## Two sides of a colon -/

/-- A text is split at a colon with none before it. -/
theorem splitColon_eq_some_iff {cs before after : List Char} :
    splitColon cs = some (before, after) ↔ cs = before ++ ':' :: after ∧ ':' ∉ before := by
  unfold splitColon
  constructor
  · intro h
    have hcs : cs.takeWhile (· != ':') ++ cs.dropWhile (· != ':') = cs :=
      List.takeWhile_append_dropWhile
    have hhead := List.head?_dropWhile_not (· != ':') cs
    split at h
    · cases h
    next c rest hdrop =>
    cases h
    rw [hdrop] at hcs hhead
    obtain rfl : c = ':' := by simpa using hhead
    refine ⟨hcs.symm, fun hmem => ?_⟩
    have := List.all_eq_true.mp (List.all_takeWhile (p := (· != ':'))) ':' hmem
    simp at this
  · rintro ⟨rfl, hbefore⟩
    have hne : ∀ c ∈ before, (c != ':') = true := fun c hc =>
      bne_iff_ne.mpr fun heq => hbefore (heq ▸ hc)
    rw [List.dropWhile_append_of_pos hne, List.takeWhile_append_of_pos hne]
    simp

/-- A colon is no part of a number. -/
theorem colon_not_mem {cs : List Char} {n : Nat} (h : IsNumber cs n) : ':' ∉ cs := by
  obtain ⟨ds, hcs, -, hds, -⟩ := h
  have hcolon : ':' ∉ ds := fun hmem => absurd (hds ':' hmem) (by decide)
  rcases hcs with rfl | rfl
  · exact hcolon
  · simpa using hcolon

/-- The form of a time : a number, a colon and a number. -/
def IsTimeText (t : List Char) (hour minute : Nat) : Prop :=
  ∃ before after, t = before ++ ':' :: after ∧ IsNumber before hour ∧ IsNumber after minute

/-- The sides of a time are read if both are within the limit, and nothing else is. -/
theorem readSides_eq_some_iff {cs : List Char} {hour minute : Nat} :
    readSides cs = some (hour, minute) ↔
      IsTimeText (trim cs) hour minute ∧ hour ≤ sideLimit ∧ minute ≤ sideLimit := by
  unfold readSides
  constructor
  · intro h
    split at h
    · cases h
    next before after hsplit =>
    split at h
    · next hhour hminute =>
      cases h
      obtain ⟨hbefore, hhour⟩ := readNatural_eq_ok_iff.mp hhour
      obtain ⟨hafter, hminute⟩ := readNatural_eq_ok_iff.mp hminute
      exact ⟨⟨before, after, (splitColon_eq_some_iff.mp hsplit).1, hbefore, hafter⟩, hhour, hminute⟩
    · cases h
  · rintro ⟨⟨before, after, ht, hbefore, hafter⟩, hhour, hminute⟩
    rw [splitColon_eq_some_iff.mpr ⟨ht, colon_not_mem hbefore⟩]
    dsimp only
    rw [readNatural_eq_ok_iff.mpr ⟨hbefore, hhour⟩, readNatural_eq_ok_iff.mpr ⟨hafter, hminute⟩]

/-! ## Reading -/

theorem make_eq_ok_iff {hour minute : Nat} {alarm : Alarm} :
    make hour minute = .ok alarm ↔ (alarm.hour : Nat) = hour ∧ (alarm.minute : Nat) = minute := by
  unfold make
  constructor
  · intro h
    split at h
    · cases h
      exact ⟨rfl, rfl⟩
    · cases h
  · rintro ⟨rfl, rfl⟩
    exact dif_pos ⟨alarm.hour.isLt, alarm.minute.isLt⟩

theorem make_eq_error_iff {hour minute : Nat} {refusal : Refusal} :
    make hour minute = .error refusal ↔
      (23 < hour ∨ 59 < minute) ∧ refusal = .notTimeOfDay hour minute := by
  unfold make
  split
  · next h => exact ⟨nofun, fun hlate => by omega⟩
  · next h =>
    rw [Except.error.injEq, eq_comm]
    exact (and_iff_right (by omega)).symm

variable {text : String} {alarm : Alarm} {hour minute : Nat}

theorem parse_eq_ok_iff :
    parse text = .ok alarm ↔ readSides text.toList = some (↑alarm.hour, ↑alarm.minute) := by
  unfold parse
  split
  · next hour minute hread =>
    rw [hread, make_eq_ok_iff, Option.some.injEq, Prod.mk.injEq, eq_comm, eq_comm (b := minute)]
  · next hread =>
    rw [hread]
    exact ⟨nofun, nofun⟩

theorem parse_eq_notTimeOfDay_iff : parse text = .error (.notTimeOfDay hour minute) ↔
    readSides text.toList = some (hour, minute) ∧ (23 < hour ∨ 59 < minute) := by
  unfold parse
  split
  · next h m hread =>
    rw [hread, make_eq_error_iff, Refusal.notTimeOfDay.injEq, Option.some.injEq, Prod.mk.injEq]
    constructor
    · rintro ⟨hlate, rfl, rfl⟩
      exact ⟨⟨rfl, rfl⟩, hlate⟩
    · rintro ⟨⟨rfl, rfl⟩, hlate⟩
      exact ⟨hlate, rfl, rfl⟩
  · next hread =>
    rw [hread]
    exact ⟨nofun, fun h => nomatch h.1⟩

theorem parse_eq_notTimeText_iff :
    parse text = .error (.notTimeText text) ↔ readSides text.toList = none := by
  unfold parse
  split
  · next hour minute hread =>
    rw [hread, make_eq_error_iff]
    exact ⟨fun h => (nomatch h.2), nofun⟩
  · next hread => simp [hread]

/-- An alarm is read from a text whose form, blanks at the ends aside, is that of a time which a
clock shows. A time of this form that no clock shows is refused as such if its numbers are words of
32 bits. Every other text is refused for its form, and the refusal carries it as it stands. -/
theorem reads_times (text : String) :
    IsStripped text.toList (trim text.toList) ∧
      (∀ alarm : Alarm, parse text = .ok alarm ↔
        IsTimeText (trim text.toList) alarm.hour alarm.minute) ∧
      (∀ hour minute, parse text = .error (.notTimeOfDay hour minute) ↔
        IsTimeText (trim text.toList) hour minute ∧ hour < 2 ^ 32 ∧ minute < 2 ^ 32 ∧
          (23 < hour ∨ 59 < minute)) ∧
      (parse text = .error (.notTimeText text) ↔
        ¬ ∃ hour minute, IsTimeText (trim text.toList) hour minute ∧ hour < 2 ^ 32 ∧
          minute < 2 ^ 32) := by
  have hsides : ∀ hour minute, readSides text.toList = some (hour, minute) ↔
      IsTimeText (trim text.toList) hour minute ∧ hour < 2 ^ 32 ∧ minute < 2 ^ 32 := by
    intro hour minute
    rw [readSides_eq_some_iff]
    unfold sideLimit
    exact and_congr_right fun _ => by omega
  refine ⟨isStripped_trim _, fun alarm => ?_, fun hour minute => ?_, ?_⟩
  · rw [parse_eq_ok_iff, hsides]
    exact and_iff_left ⟨by omega, by omega⟩
  · rw [parse_eq_notTimeOfDay_iff, hsides, and_assoc, and_assoc]
  · rw [parse_eq_notTimeText_iff, Option.eq_none_iff_forall_ne_some, Prod.forall]
    simp only [ne_eq, hsides, not_exists]

example : parse " +007:05\t" = .ok ⟨7, 5⟩ := by cbv

end Alarm

end Reveille
