import Reveille.Json.Record
import Reveille.Proofs.Json.Scalars

/-!
# Arrays, objects and records read back

What is written of an array is read as its elements if every one of them is (`array_reads`), and
what is written of an object is folded member by member (`Folds`, `object_reads`). Blanks may stand
wherever a style puts them (`Style.IsSpaced`). So a value without real numbers that is not nested
too deeply is read back (`Value.reader_reads`), a record is read where its members are
(`Shape.decoder_reads`), and a text is parsed as what it is read as (`Reader.parse_of_reads`).
-/

namespace Reveille.Json

open Cursor

/-! ## Blanks between the parts -/

/-- Only blanks stand between the parts of a text, and a colon between key and value. -/
structure Style.IsSpaced (style : Style) : Prop where
  lineBreak : ∀ depth, ∀ ch ∈ style.lineBreak depth, IsBlank ch
  colon : ∃ bs, style.colon = ':' :: bs ∧ ∀ ch ∈ bs, IsBlank ch

theorem Style.isSpaced_pretty : pretty.IsSpaced where
  lineBreak depth ch hch := by
    rcases List.mem_cons.mp hch with rfl | hch
    · decide
    · rw [List.eq_of_mem_replicate hch]
      decide
  colon := ⟨[' '], rfl, List.forall_mem_singleton.mpr (by decide)⟩

theorem ends_cons {ch : Char} {cs : List Char} (h : Text.isDigit ch = false ∧ ch ≠ '.' ∧ ch ≠ 'e' ∧
    ch ≠ 'E') : Ends (ch :: cs) := by
  rintro _ ⟨⟩
  exact h

theorem ends_append {bs cs : List Char} (hbs : ∀ ch ∈ bs, IsBlank ch) (hcs : Ends cs) :
    Ends (bs ++ cs) := by
  cases bs with
  | nil => exact hcs
  | cons b bs =>
    refine ends_cons ?_
    rcases hbs b List.mem_cons_self with rfl | rfl | rfl | rfl <;> decide

/-- The closing bracket comes next, and then `rest`. -/
def Closes (bracket : Char) (cs rest : List Char) : Prop :=
  ∃ bs, (∀ ch ∈ bs, IsBlank ch) ∧ cs = bs ++ bracket :: rest

theorem Closes.rest_blanks {bracket : Char} {c : Cursor} {rest : List Char}
    (h : Closes bracket c.rest rest) (hbracket : ¬ IsBlank bracket) :
    c.blanks.rest = bracket :: rest := by
  obtain ⟨bs, hbs, hc⟩ := h
  refine Json.rest_blanks hc hbs ?_
  rintro _ ⟨⟩
  exact hbracket

theorem Closes.ends {bracket : Char} {cs rest : List Char} (h : Closes bracket cs rest)
    (hbracket : Ends [bracket]) : Ends cs := by
  obtain ⟨bs, hbs, rfl⟩ := h
  exact ends_append hbs (ends_cons (hbracket bracket rfl))

variable {α β σ : Type} {style : Style} {depth : Nat} {first : Bool} {r : Reader α}
  {c : Cursor} {cs rest : List Char} {a : α}

theorem closes_close (hstyle : style.IsSpaced) (bracket : Char) (isEmpty : Bool) :
    Closes bracket (style.close depth bracket isEmpty ++ rest) rest := by
  cases isEmpty
  · exact ⟨style.lineBreak depth, hstyle.lineBreak depth, by simp [Style.close]⟩
  · exact ⟨[], by simp, rfl⟩

/-- The separator in front of an item is a comma, unless the item is the first one, and blanks. -/
theorem blanks_separator (hstyle : style.IsSpaced) (hc : c.rest = style.separator depth first ++ cs)
    (hcs : Solid cs) : if first then c.blanks.rest = cs else
      c.blanks.rest = ',' :: (style.lineBreak depth ++ cs) ∧ c.blanks.next.blanks.rest = cs := by
  cases first
  · have hcomma : c.blanks.rest = ',' :: (style.lineBreak depth ++ cs) :=
      rest_blanks_cons hc (by decide)
    exact ⟨hcomma, rest_blanks (rest_next hcomma) (hstyle.lineBreak depth) hcs⟩
  · exact rest_blanks hc (hstyle.lineBreak depth) hcs

theorem write_array (items : List Value) : (Value.array items).write style depth =
    '[' :: (Value.writeItems style (depth + 1) true items ++
      style.close depth ']' items.isEmpty) := by
  rw [Value.write]
  rfl

theorem write_object (entries : List (String × Value)) : (Value.object entries).write style depth =
    '\x7b' :: (Value.writeMembers style (depth + 1) true entries ++
      style.close depth '\x7d' entries.isEmpty) := by
  rw [Value.write]
  rfl

/-- An array is read by the branch of its bracket. -/
theorem Reader.reads_dispatch_array {branch : Char → Reader α} {items : List Value}
    (h : Take.Reads (branch '[').run ((Value.array items).write style depth) a) :
    (Reader.dispatch branch).Reads ((Value.array items).write style depth) a := by
  rw [write_array] at h ⊢
  exact reads_dispatch ⟨_, _, rfl, by decide, by decide⟩ h

/-- An object is read by the branch of its bracket. -/
theorem Reader.reads_dispatch_object {branch : Char → Reader α} {entries : List (String × Value)}
    (h : Take.Reads (branch '\x7b').run ((Value.object entries).write style depth) a) :
    (Reader.dispatch branch).Reads ((Value.object entries).write style depth) a := by
  rw [write_object] at h ⊢
  exact reads_dispatch ⟨_, _, rfl, by decide, by decide⟩ h

/-! ## Arrays -/

theorem nextElement_closed (hc : c.blanks.rest = ']' :: rest) :
    nextElement r first c = .ok (none, c.blanks) := by
  unfold nextElement
  dsimp only
  rw [hc]
  rfl

theorem nextElement_reads (hstyle : style.IsSpaced) (h : r.Reads cs a) (hrest : Ends rest)
    (hc : c.rest = style.separator depth first ++ (cs ++ rest)) :
    ∃ c', nextElement r first c = .ok (some a, c') ∧ c'.rest = rest := by
  have hblanks := blanks_separator hstyle hc (h.opens.solid_append rest)
  obtain ⟨ch, tail, rfl, -, hclose⟩ := id h.opens
  cases first
  · obtain ⟨hcomma, hnext⟩ := hblanks
    obtain ⟨c', hrun, hc'⟩ := h.take c.blanks.next.blanks rest hnext hrest
    refine ⟨c', ?_, hc'⟩
    unfold nextElement
    dsimp only
    rw [hcomma, hnext]
    simp [hclose, hrun, Except.map]
  · obtain ⟨c', hrun, hc'⟩ := h.take c.blanks rest hblanks hrest
    refine ⟨c', ?_, hc'⟩
    unfold nextElement
    dsimp only
    rw [show c.blanks.rest = (ch :: tail) ++ rest from hblanks]
    simp [hclose, hrun, Except.map]

theorem ends_writeItems (items : List Value) (hcs : Ends cs) :
    Ends (Value.writeItems style depth false items ++ cs) := by
  cases items with
  | nil => exact hcs
  | cons v vs => exact ends_cons (by decide)

/-- The elements that are written are read, up to the bracket. -/
theorem elements_reads (hstyle : style.IsSpaced) {json : α → Value} : ∀ (as : List α) {first : Bool}
    {c : Cursor}, (∀ a ∈ as, r.Reads ((json a).write style depth) a) →
    c.rest = Value.writeItems style depth first (as.map json) ++ cs → Closes ']' cs rest →
    ∃ c', elements r first c = .ok (as, c') ∧ c'.rest = rest
  | [], first, c, _, hc, hcs => by
    have hbracket := Closes.rest_blanks (hc ▸ hcs : Closes ']' c.rest rest) (by decide)
    refine ⟨c.blanks.next, ?_, rest_next hbracket⟩
    rw [elements]
    split <;> simp_all [nextElement_closed hbracket]
  | a :: as, first, c, has, hc, hcs => by
    have hends : Ends (Value.writeItems style depth false (as.map json) ++ cs) :=
      ends_writeItems _ (hcs.ends (ends_cons (by decide)))
    have hc : c.rest = style.separator depth first ++ ((json a).write style depth ++
        (Value.writeItems style depth false (as.map json) ++ cs)) := by
      simpa [Value.writeItems] using hc
    obtain ⟨c₁, hnext, hc₁⟩ := nextElement_reads hstyle (has a List.mem_cons_self) hends hc
    obtain ⟨c₂, hrun, hc₂⟩ := elements_reads hstyle as
      (fun b hb => has b (List.mem_cons_of_mem a hb)) hc₁ hcs
    refine ⟨c₂, ?_, hc₂⟩
    rw [elements]
    split <;> simp_all

/-- What is written of an array is read as its elements. -/
theorem array_reads (hstyle : style.IsSpaced) {json : α → Value} {as : List α}
    (h : ∀ a ∈ as, r.Reads ((json a).write style (depth + 1)) a) :
    Take.Reads (Reader.array r).run ((Value.array (as.map json)).write style depth) as := by
  rw [write_array]
  refine Reader.reads_behind (fun c rest hc _ => ?_) length_elements_le
  rw [List.append_assoc] at hc
  exact elements_reads hstyle as h hc (closes_close hstyle ']' _)

/-! ## Objects -/

theorem key_reads (name : String) : Take.Reads key (stringText name) name := by
  intro c rest hc hrest
  obtain ⟨c', hrun, hc'⟩ := Literal.string_reads name.toList c.next rest (rest_next hc) hrest
  refine ⟨c', ?_, hc'⟩
  unfold key
  rw [hrun]
  simp [bind, Except.bind]

theorem nextKey_closed (hc : c.blanks.rest = '\x7d' :: rest) :
    nextKey first c = .ok (none, c.blanks) := by
  unfold nextKey
  dsimp only
  rw [hc]
  rfl

theorem nextKey_reads (hstyle : style.IsSpaced) (name : String) (hrest : Ends rest)
    (hc : c.rest = style.separator depth first ++ (stringText name ++ rest)) :
    ∃ c', nextKey first c = .ok (some name, c') ∧ c'.rest = rest := by
  have hsolid : Solid (stringText name ++ rest) := by
    rintro _ ⟨⟩
    decide
  have hblanks := blanks_separator hstyle hc hsolid
  cases first
  · obtain ⟨hcomma, hnext⟩ := hblanks
    obtain ⟨c', hrun, hc'⟩ := key_reads name c.blanks.next.blanks rest hnext hrest
    refine ⟨c', ?_, hc'⟩
    unfold nextKey
    dsimp only
    rw [hcomma, hnext]
    simp [stringText, hrun, Except.map]
  · obtain ⟨c', hrun, hc'⟩ := key_reads name c.blanks rest hblanks hrest
    refine ⟨c', ?_, hc'⟩
    unfold nextKey
    dsimp only
    rw [show c.blanks.rest = stringText name ++ rest from hblanks]
    simp [stringText, hrun, Except.map]

theorem colon_reads (hc : c.rest = ':' :: rest) :
    ∃ c', colon c = .ok ((), c') ∧ c'.rest = rest := by
  have hblanks : c.blanks.rest = ':' :: rest := rest_blanks_cons hc (by decide)
  refine ⟨c.blanks.next, ?_, rest_next hblanks⟩
  unfold colon
  dsimp only
  rw [hblanks]
  rfl

/-- The members written of an object are read one after the other, from `s` to `t`. -/
inductive Folds (style : Style) (depth : Nat) (step : String → σ → Except Problem (Reader σ)) :
    σ → List (String × Value) → σ → Prop
  | nil (s : σ) : Folds style depth step s [] s
  | cons {s s' t : σ} {name : String} {v : Value} {entries : List (String × Value)} {r : Reader σ}
    (hstep : step name s = .ok r) (hread : r.Reads (v.write style depth) s')
    (hrest : Folds style depth step s' entries t) :
    Folds style depth step s ((name, v) :: entries) t

variable {step : String → σ → Except Problem (Reader σ)} {s t : σ}
  {entries : List (String × Value)}

theorem ends_writeMembers (entries : List (String × Value)) (hcs : Ends cs) :
    Ends (Value.writeMembers style depth false entries ++ cs) := by
  cases entries with
  | nil => exact hcs
  | cons entry entries => exact ends_cons (by decide)

/-- Behind a key and its value the fold goes on. -/
theorem members_of_nextKey {name : String} {s' : σ} {r : Reader σ} {c c₁ c₂ c₃ : Cursor}
    (hkey : nextKey first c = .ok (some name, c₁)) (hstep : step name s = .ok r)
    (hcolon : colon c₁ = .ok ((), c₂)) (hrun : r.run c₂ = .ok (s', c₃)) :
    members step first s c = members step false s' c₃ := by
  rw [members]
  split
  · simp_all
  · simp_all
  · next heq =>
    rw [hkey] at heq
    cases heq
    rw [hstep]
    dsimp only
    split
    · simp_all
    · next heq =>
      rw [hcolon] at heq
      cases heq
      split <;> simp_all

/-- The members that are written are folded over, up to the bracket. -/
theorem members_reads (hstyle : style.IsSpaced) (h : Folds style depth step s entries t) :
    ∀ {first : Bool} {c : Cursor}, c.rest = Value.writeMembers style depth first entries ++ cs →
    Closes '\x7d' cs rest → ∃ c', members step first s c = .ok (t, c') ∧ c'.rest = rest := by
  induction h with
  | nil s =>
    intro first c hc hcs
    have hbracket := Closes.rest_blanks (hc ▸ hcs : Closes '\x7d' c.rest rest) (by decide)
    refine ⟨c.blanks.next, ?_, rest_next hbracket⟩
    rw [members]
    split <;> simp_all [nextKey_closed hbracket]
  | @cons s s' t name v entries r hstep hread _ ih =>
    intro first c hc hcs
    obtain ⟨bs, hcolon, hbs⟩ := hstyle.colon
    have hends : Ends (Value.writeMembers style depth false entries ++ cs) :=
      ends_writeMembers entries (hcs.ends (ends_cons (by decide)))
    -- The key, the colon behind it, and the value behind that.
    have hc : c.rest = style.separator depth first ++ (stringText name ++ (':' :: (bs ++
        (v.write style depth ++ (Value.writeMembers style depth false entries ++ cs))))) := by
      simpa [Value.writeMembers, hcolon] using hc
    obtain ⟨c₁, hkey, hc₁⟩ := nextKey_reads hstyle name (ends_cons (by decide)) hc
    obtain ⟨c₂, hcol, hc₂⟩ := colon_reads hc₁
    obtain ⟨c₃, hrun, hc₃⟩ := hread.run c₂ _
      (rest_blanks hc₂ hbs (hread.opens.solid_append _)) hends
    rw [members_of_nextKey hkey hstep hcol hrun]
    exact ih hc₃ hcs

/-- What is written of an object is folded over. -/
theorem object_reads (hstyle : style.IsSpaced) (h : Folds style (depth + 1) step s entries t) :
    Take.Reads (Reader.object step s).run ((Value.object entries).write style depth) t := by
  rw [write_object]
  refine Reader.reads_behind (fun c rest hc _ => ?_) length_members_le
  rw [List.append_assoc] at hc
  exact members_reads hstyle h hc (closes_close hstyle '\x7d' _)

/-! ## Values -/

/-- The value has no real numbers, its integers fit 64 bits, and it is nested within the budget. -/
inductive Value.Readable : Nat → Value → Prop
  | scalar {budget : Nat} {v : Value} (h : v.IsScalar) : Readable budget v
  | array {budget : Nat} {items : List Value} (h : ∀ v ∈ items, Readable (budget + 1) v) :
    Readable (budget + 2) (.array items)
  | object {budget : Nat} {entries : List (String × Value)}
    (h : ∀ entry ∈ entries, Readable (budget + 1) entry.2) : Readable (budget + 2) (.object entries)

theorem Value.readable_null (budget : Nat) : Value.null.Readable budget :=
  .scalar trivial

theorem Value.readable_string (budget : Nat) (s : String) : (Value.string s).Readable budget :=
  .scalar trivial

theorem folds_collect {r : Reader Value} : ∀ (entries collected : List (String × Value)),
    (∀ entry ∈ entries, r.Reads (entry.2.write style depth) entry.2) →
    Folds style depth (fun name ms => .ok (r.map fun v => (name, v) :: ms)) collected entries
      (entries.reverse ++ collected)
  | [], collected, _ => .nil collected
  | (name, v) :: entries, collected, h => by
    have ih := folds_collect entries ((name, v) :: collected)
      fun entry hentry => h entry (List.mem_cons_of_mem _ hentry)
    rw [List.reverse_cons, List.append_assoc]
    exact .cons rfl ((h (name, v) List.mem_cons_self).map _) ih

/-- What is written of a value is read back. -/
theorem Value.reader_reads (hstyle : style.IsSpaced) {budget : Nat} {v : Value}
    (h : v.Readable budget) : ∀ depth, (Value.reader budget).Reads (v.write style depth) v := by
  induction h with
  | @scalar budget v hv =>
    intro depth
    obtain ⟨ch, tail, r, hwrite, hopens, hscalar, hreads⟩ := Value.scalar_reads hv style depth
    rw [hwrite] at hopens hreads ⊢
    rw [Value.reader]
    refine Reader.reads_dispatch hopens ?_
    rw [hscalar]
    exact hreads
  | @array budget items _ ih =>
    intro depth
    have hreads : Take.Reads (Reader.array (Value.reader (budget + 1))).run
        ((Value.array (items.map id)).write style depth) items :=
      array_reads hstyle fun v hv => ih v hv (depth + 1)
    rw [List.map_id] at hreads
    rw [Value.reader]
    exact Reader.reads_dispatch_array (hreads.map Value.array)
  | @object budget entries _ ih =>
    intro depth
    have hreads := object_reads hstyle
      (folds_collect entries [] fun entry hentry => ih entry hentry (depth + 1))
    have hback := hreads.map fun members => Value.object members.reverse
    rw [List.append_nil, List.reverse_reverse] at hback
    rw [Value.reader]
    exact Reader.reads_dispatch_object hback

/-! ## Decoders -/

/-- A list is read if its elements are. -/
theorem Decoder.list_reads (hstyle : style.IsSpaced) {d : Decoder α} {json : α → Value}
    {as : List α} (h : ∀ a ∈ as, d.reader.Reads ((json a).write style (depth + 1)) a) :
    (Decoder.list d).reader.Reads ((Value.array (as.map json)).write style depth) as :=
  Reader.reads_dispatch_array (array_reads hstyle h)

/-- What is not null is taken as a value. -/
theorem Decoder.optional_take {d : Decoder α} {v : Value} (hv : v ≠ .null) (ha : d.take v = .ok a) :
    (Decoder.optional d).take v = .ok (some a) := by
  unfold Decoder.optional
  dsimp only
  split
  · exact absurd rfl hv
  · rw [ha]
    rfl

namespace Shape

variable {shape : Shape σ α} {name : String} {get : σ → Option β} {set : σ → β → σ} {d : Decoder β}
  {b : β}

/-- A member that has not been given yet is read into the draft. -/
theorem readMember_of (hm : shape.member? name = some (.of name get set d)) (hs : get s = none)
    (hb : d.reader.Reads cs b) :
    ∃ r, shape.readMember name s = .ok r ∧ r.Reads cs (set s b) := by
  refine ⟨_, ?_, (hb.map fun b s => set s b).map fun f => f s⟩
  unfold readMember
  rw [hm]
  exact if_neg (by simp [Member.of, hs])

/-- A member that has not been given yet is taken into the draft. -/
theorem takeMember_of {v : Value} (hm : shape.member? name = some (.of name get set d))
    (hs : get s = none) (hb : d.take v = .ok b) : shape.takeMember s (name, v) = .ok (set s b) := by
  unfold takeMember
  dsimp only
  rw [hm]
  simp [Member.of, hs, hb, Except.map]

/-- A record is read if its members are and the draft can be finished. -/
theorem decoder_reads (hstyle : style.IsSpaced)
    (h : Folds style (depth + 1) shape.readMember shape.draft entries s)
    (hs : shape.finishObject s = .ok a) :
    shape.decoder.reader.Reads ((Value.object entries).write style depth) a :=
  Reader.reads_dispatch_object ((object_reads hstyle h).check hs)

end Shape

/-! ## Texts -/

/-- A text is parsed as what it is read as, whatever blanks stand behind it. -/
theorem Reader.parse_of_reads {text : String} {bs : List Char} (h : r.Reads cs a)
    (htext : text.toList = cs ++ bs) (hbs : ∀ ch ∈ bs, IsBlank ch) : r.parse text = .ok a := by
  have hends : Ends bs := by
    have hends : Ends (bs ++ []) := ends_append hbs (by rintro _ ⟨⟩)
    rwa [List.append_nil] at hends
  obtain ⟨c, hrun, hc⟩ := h.take (.start text) bs htext hends
  have hend : c.blanks.rest = [] :=
    rest_blanks (by rw [hc, List.append_nil]) hbs (by rintro _ ⟨⟩)
  unfold parse
  rw [hrun]
  simp only [bind, Except.bind, hend]

end Reveille.Json
