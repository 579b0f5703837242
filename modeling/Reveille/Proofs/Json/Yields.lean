import Reveille.Json.Record

/-!
# What readers yield

A property that every value has that a reader yields, whatever the text (`Take.Yields`). A reader
that picks a branch, changes or checks a value passes it on, and a record has it if the draft keeps
an invariant from member to member (`Shape.decoder_yields`).

A record that is taken from an object has as a member what the object's entry of its name says
(`Shape.HasMember.given_of_get?`).
-/

namespace Reveille.Json

/-- Every value that is taken has the property. -/
def Take.Yields {α : Type} (t : Take α) (P : α → Prop) : Prop :=
  ∀ ⦃c : Cursor⦄ ⦃a : α⦄ ⦃c' : Cursor⦄, t c = .ok (a, c') → P a

namespace Reader

variable {α β : Type} {r : Reader α} {P : α → Prop} {Q : β → Prop}

theorem yields_map {f : α → β} (h : r.run.Yields P) (hf : ∀ a, P a → Q (f a)) :
    (r.map f).run.Yields Q := by
  intro c b c' hrun
  obtain ⟨⟨a, c₁⟩, hr, heq⟩ := bind_eq_ok.mp hrun
  cases heq
  exact hf a (h hr)

theorem yields_check {f : α → Except Problem β} (h : r.run.Yields P)
    (hf : ∀ a b, P a → f a = .ok b → Q b) : (r.check f).run.Yields Q := by
  intro c b c' hrun
  obtain ⟨⟨a, c₁⟩, hr, hcheck⟩ := bind_eq_ok.mp hrun
  dsimp only at hcheck
  split at hcheck
  · next hb =>
    cases hcheck
    exact hf a _ (h hr) hb
  · cases hcheck

theorem yields_dispatch {branch : Char → Reader α} (h : ∀ ch, (branch ch).run.Yields P) :
    (dispatch branch).run.Yields P := by
  intro c a c' hrun
  unfold dispatch at hrun
  dsimp only at hrun
  split at hrun
  · cases hrun
  · exact h _ hrun

theorem yields_behind {t : Take α} (h : t.Yields P)
    (ht : ∀ {c : Cursor} {a : α} {c' : Cursor}, t c = .ok (a, c') →
      c'.rest.length ≤ c.rest.length) : (behind t ht).run.Yields P := by
  intro c a c' hrun
  unfold behind at hrun
  dsimp only at hrun
  split at hrun
  · cases hrun
  · exact h hrun

/-- A reader for scalars yields what it accepts. -/
theorem yields_ofScalar {wanted : String} {take : Value → Except Problem α}
    (h : ∀ v a, take v = .ok a → P a) : (ofScalar wanted take).run.Yields P := by
  refine yields_dispatch fun ch => ?_
  split
  · exact yields_check (fun _ _ _ _ => trivial) fun v a _ => h v a
  · intro c a c' hrun
    cases hrun

end Reader

/-! ## Records -/

namespace Member

variable {σ α : Type} {I : σ → Prop} {P : α → Prop}

/-- The member's value keeps the invariant of the draft. -/
def Keeps (m : Member σ) (I : σ → Prop) : Prop :=
  m.decoder.reader.run.Yields fun f => ∀ s, I s → I (f s)

theorem keeps_of (name : String) (get : σ → Option α) {set : σ → α → σ} {d : Decoder α}
    (h : d.reader.run.Yields P) (hset : ∀ s a, I s → P a → I (set s a)) :
    (of name get set d).Keeps I :=
  Reader.yields_map h fun a ha s hs => hset s a hs ha

end Member

theorem yields_members {σ : Type} {I : σ → Prop} {step : String → σ → Except Problem (Reader σ)}
    (hstep : ∀ k s r, I s → step k s = .ok r → r.run.Yields I) {first : Bool} {s : σ}
    (hs : I s) : (members step first s).Yields I := by
  intro c t c' h
  fun_induction members step first s c with
  | case1 => cases h
  | case2 first s c c₁ h₁ =>
    cases h
    exact hs
  | case3 => cases h
  | case4 => cases h
  | case5 => cases h
  | case6 first s c k c₁ _ r hr c₂ _ s₁ c₃ h₃ ih => exact ih (hstep k s r hs hr h₃) h

theorem yields_nextElement {α : Type} {r : Reader α} {P : α → Prop} (h : r.run.Yields P)
    {first : Bool} : (nextElement r first).Yields fun o => ∀ a ∈ o, P a := by
  have hsome : ∀ {c : Cursor} {o : Option α} {c' : Cursor},
      ((r.run c).map fun p => (some p.1, p.2)) = .ok (o, c') → ∀ a ∈ o, P a := by
    intro c o c' hrun a ha
    obtain ⟨⟨b, c₁⟩, hr, heq⟩ := map_eq_ok.mp hrun
    cases heq
    cases ha
    exact h hr
  intro c o c' hrun
  unfold nextElement at hrun
  dsimp only at hrun
  split at hrun
  · cases hrun
  split at hrun
  · cases hrun
    intro a ha
    cases ha
  split at hrun
  · exact hsome hrun
  split at hrun
  · split at hrun
    · cases hrun
    split at hrun
    · cases hrun
    · exact hsome hrun
  · cases hrun

namespace Shape

variable {σ α : Type} {shape : Shape σ α} {I : σ → Prop} {P : α → Prop}

theorem yields_readMember (hmembers : ∀ m ∈ shape.members, m.Keeps I) {name : String} {s : σ}
    {r : Reader σ} (hs : I s) (h : shape.readMember name s = .ok r) : r.run.Yields I := by
  unfold readMember at h
  split at h
  · cases h
    exact Reader.yields_map (fun _ _ _ _ => trivial) fun _ _ => hs
  · next m hm =>
    split at h
    · cases h
    · cases h
      exact Reader.yields_map (hmembers m (List.mem_of_find?_eq_some hm)) fun f hf => hf s hs

theorem yields_readElements : ∀ {ms : List (Member σ)} {first : Bool} {s : σ},
    (∀ m ∈ ms, m.Keeps I) → I s → (readElements ms first s).Yields I
  | [], first, s, _, hs, c, t, c', h => by
    cases h
    exact hs
  | m :: ms, first, s, hms, hs, c, t, c', h => by
    unfold readElements at h
    split at h
    · cases h
    · cases h
      exact hs
    · next f c₁ h₁ =>
      have hf := yields_nextElement (hms m List.mem_cons_self) h₁ f rfl
      exact yields_readElements (fun m' hm' => hms m' (List.mem_cons_of_mem m hm')) (hf s hs) h

/-- A record has a property that its finished draft has, if every member keeps the invariant of the
draft. -/
theorem decoder_yields (hdraft : I shape.draft) (hmembers : ∀ m ∈ shape.members, m.Keeps I)
    (hfinish : ∀ s a, I s → shape.finish s = .ok a → P a) :
    shape.decoder.reader.run.Yields P := by
  have hobject : shape.objectReader.run.Yields P := by
    refine Reader.yields_check (Reader.yields_behind
      (yields_members (fun k s r => yields_readMember hmembers) hdraft) _) fun s a hs ha => ?_
    exact hfinish s a hs (mapError_eq_ok.mp ha)
  have harray : shape.arrayReader.run.Yields P := by
    refine Reader.yields_behind (fun c a c' h => ?_) _
    obtain ⟨⟨s, c₁⟩, h₁, h₂⟩ := bind_eq_ok.mp h
    dsimp only at h₂
    split at h₂
    · cases h₂
    · next b hb =>
      obtain ⟨_, -, heq⟩ := bind_eq_ok.mp h₂
      cases heq
      exact hfinish s _ (yields_readElements hmembers hdraft h₁) (mapError_eq_ok.mp hb)
  refine Reader.yields_dispatch fun ch => ?_
  split
  · exact hobject
  split
  · exact harray
  · exact Reader.yields_ofScalar fun v a h => by cases h

end Shape

/-! ## Members that are taken -/

/-- Taking the member leaves what `get` reads of the draft alone. -/
def Member.Spares {σ β : Type} (m : Member σ) (get : σ → Option β) : Prop :=
  ∀ v f, m.decoder.take v = .ok f → ∀ s, get (f s) = get s

theorem Member.spares_of {σ β γ : Type} {get : σ → Option β} (name : String) (get' : σ → Option γ)
    {set : σ → γ → σ} (d : Decoder γ) (h : ∀ s c, get (set s c) = get s) :
    (Member.of name get' set d).Spares get := by
  intro v f hf s
  obtain ⟨c, -, rfl⟩ := map_eq_ok.mp hf
  exact h s c

theorem Value.get?_cons (name key : String) (v : Value) (entries : List (String × Value)) :
    (Value.object ((key, v) :: entries)).get? name =
      if key = name then some v else (Value.object entries).get? name := by
  unfold Value.get?
  by_cases h : key = name <;> simp [h]

namespace Shape

variable {σ α β : Type} {shape : Shape σ α} {name : String} {get : σ → Option β}
  {set : σ → β → σ} {d : Decoder β} {entries : List (String × Value)} {s t : σ}

/-- `get` reads what is given of a member, and taking other members leaves that alone. -/
structure HasMember (shape : Shape σ α) (name : String) (get : σ → Option β) (set : σ → β → σ)
    (d : Decoder β) : Prop where
  member? : shape.member? name = some (.of name get set d)
  get_set : ∀ s b, get (set s b) = some b
  spares : ∀ m ∈ shape.members, m.name ≠ name → m.Spares get

namespace HasMember

/-- An entry of the member's name gives it, if it has not been given, and others leave it alone. -/
theorem takeMember_cases (hm : shape.HasMember name get set d) {entry : String × Value}
    (h : shape.takeMember s entry = .ok t) :
    (entry.1 = name ∧ get s = none ∧ ∃ b, d.take entry.2 = .ok b ∧ get t = some b) ∨
      entry.1 ≠ name ∧ get t = get s := by
  obtain ⟨key, v⟩ := entry
  unfold takeMember at h
  dsimp only at h ⊢
  by_cases hkey : key = name
  · subst hkey
    rw [hm.member?] at h
    dsimp only at h
    split at h
    · cases h
    next hgiven =>
    obtain ⟨f, hf, rfl⟩ := map_eq_ok.mp h
    obtain ⟨b, hb, rfl⟩ := map_eq_ok.mp hf
    have hnone : get s = none := by simpa [Member.of] using hgiven
    exact .inl ⟨rfl, hnone, b, hb, hm.get_set s b⟩
  · refine .inr ⟨hkey, ?_⟩
    split at h
    · cases h
      rfl
    next m hfound =>
    split at h
    · cases h
    obtain ⟨f, hf, rfl⟩ := map_eq_ok.mp h
    have hname : m.name = key := by simpa using List.find?_some hfound
    exact hm.spares m (List.mem_of_find?_eq_some hfound) (hname ▸ hkey) v f hf s

/-- A member that has been given is not given again. -/
theorem get?_of_given {b : β} (hm : shape.HasMember name get set d)
    (h : entries.foldlM shape.takeMember s = .ok t) (hs : get s = some b) :
    (Value.object entries).get? name = none ∧ get t = some b := by
  induction entries generalizing s with
  | nil =>
    cases h
    exact ⟨rfl, hs⟩
  | cons entry entries ih =>
    rw [List.foldlM_cons] at h
    obtain ⟨s', hstep, h⟩ := bind_eq_ok.mp h
    obtain ⟨-, hnone, -⟩ | ⟨hkey, hget⟩ := hm.takeMember_cases hstep
    · rw [hs] at hnone
      cases hnone
    · obtain ⟨hentries, ht⟩ := ih h (hget.trans hs)
      rw [Value.get?_cons, if_neg hkey]
      exact ⟨hentries, ht⟩

/-- A member that is not given yet is what the object's entry of its name says, if there is one. -/
theorem given_of_get? (hm : shape.HasMember name get set d)
    (h : entries.foldlM shape.takeMember s = .ok t) (hs : get s = none) :
    match (Value.object entries).get? name with
    | some v => ∃ b, d.take v = .ok b ∧ get t = some b
    | none => get t = none := by
  induction entries generalizing s with
  | nil =>
    cases h
    exact hs
  | cons entry entries ih =>
    rw [List.foldlM_cons] at h
    obtain ⟨s', hstep, h⟩ := bind_eq_ok.mp h
    rw [Value.get?_cons]
    obtain ⟨hkey, -, b, hb, hget⟩ | ⟨hkey, hget⟩ := hm.takeMember_cases hstep
    · rw [if_pos hkey]
      exact ⟨b, hb, (hm.get?_of_given h hget).2⟩
    · rw [if_neg hkey]
      exact ih h (hget.trans hs)

end HasMember

end Shape

end Reveille.Json
