import Reveille.Store.Wakeups

/-!
# What becomes of records

To join a wake-up to records adds the key of its occurrence, if it is not there, and takes none
away (`Records.holds_merge`); the records of other users stay as they are. What `restore` puts
back after a wake-up has been joined is exactly what was there before (`Records.restore_merge`).
So a store that cannot write its file is as it was before (`WakeupStore.upsert_unwritten`).
-/

namespace Reveille

namespace Records

/-- There is a record of the occurrence. -/
def Holds (rs : Records) (user : String) (i : Instant) : Prop :=
  ∃ r ∈ rs.toList, r.IsOf user i

instance (rs : Records) (user : String) (i : Instant) : Decidable (rs.Holds user i) :=
  inferInstanceAs (Decidable (∃ r ∈ rs.toList, _))

/-- The records of all users but one. -/
def others (rs : Records) (user : String) : List Record :=
  rs.toList.filter fun r => !decide (r.user = user)

variable {rs : Records} {user : String} {i : Instant} {w : Wakeup} {r : Record} {l : List Record}

/-! ## Joining -/

theorem exists_isOf_put (r : Record) : ∀ l : List Record,
    (∃ s ∈ put r l, s.IsOf user i) ↔ (∃ s ∈ l, s.IsOf user i) ∨ r.IsOf user i
  | [] => by simp [put]
  | s :: rest => by
    unfold put
    by_cases hs : s.IsOf r.user r.wakeup.alarmInstant
    · rw [if_pos hs]
      -- The record that is joined to has the key already, before and after.
      have hkey : r.IsOf user i ↔ s.IsOf user i := by
        unfold Record.IsOf at hs ⊢
        rw [hs.1, hs.2]
      have hjoined : Record.IsOf { s with wakeup := s.wakeup.merge r.wakeup } user i ↔
          s.IsOf user i := Iff.rfl
      simp only [List.mem_cons, exists_eq_or_imp, hkey, hjoined]
      rw [or_right_comm, or_self]
    rw [if_neg hs]
    by_cases hlt : r.Before s
    · rw [if_pos hlt]
      simp only [List.mem_cons, exists_eq_or_imp]
      exact or_comm
    · rw [if_neg hlt]
      simp only [List.mem_cons, exists_eq_or_imp, exists_isOf_put r rest]
      exact or_assoc.symm

/-- Joining a wake-up adds the key of its occurrence and takes none away. -/
theorem holds_merge {user' : String} : (rs.merge user w).Holds user' i ↔
    rs.Holds user' i ∨ user = user' ∧ w.alarmInstant = i :=
  exists_isOf_put ⟨user, w⟩ rs.toList

/-- Joining a record changes none of those that `p` picks, if `p` picks none of its key. -/
theorem filter_put {p : Record → Bool}
    (hp : ∀ s : Record, s.IsOf r.user r.wakeup.alarmInstant → p s = false) :
    ∀ l : List Record, (put r l).filter p = l.filter p
  | [] => by simp [put, hp r ⟨rfl, rfl⟩]
  | s :: rest => by
    unfold put
    by_cases hs : s.IsOf r.user r.wakeup.alarmInstant
    · rw [if_pos hs, List.filter_cons_of_neg, List.filter_cons_of_neg]
      · simp [hp s hs]
      · simp [hp { s with wakeup := s.wakeup.merge r.wakeup } hs]
    rw [if_neg hs]
    by_cases hlt : r.Before s
    · rw [if_pos hlt, List.filter_cons_of_neg]
      simp [hp r ⟨rfl, rfl⟩]
    · rw [if_neg hlt, List.filter_cons, List.filter_cons, filter_put hp rest]

theorem others_merge : (rs.merge user w).others user = rs.others user :=
  filter_put (fun s hs => by simp [hs.1]) rs.toList

/-! ## Putting back -/

theorem isOf_self (r : Record) : r.IsOf r.user r.wakeup.alarmInstant := ⟨rfl, rfl⟩

theorem not_isOf_of_before {s : Record} (h : r.Before s) :
    ¬ s.IsOf r.user r.wakeup.alarmInstant := by
  rintro ⟨hu, hi⟩
  unfold Record.Before at h
  rw [hu, hi] at h
  rcases h with h | ⟨-, h⟩
  · exact String.lt_irrefl _ h
  · exact Instant.lt_irrefl _ h

/-- A record that comes before all others is put in front. -/
theorem put_of_before (h : ∀ s ∈ l, r.Before s) : put r l = r :: l := by
  cases l with
  | nil => rfl
  | cons s rest =>
    have hs := h s List.mem_cons_self
    unfold put
    rw [if_neg (not_isOf_of_before hs), if_pos hs]

/-- A record that is taken out and put back is where it was. -/
theorem put_filter : ∀ {l : List Record}, l.Pairwise Record.Before → r ∈ l →
    put r (l.filter fun s => !decide (s.IsOf r.user r.wakeup.alarmInstant)) = l
  | s :: rest, hl, hr => by
    obtain ⟨hs, hrest⟩ := List.pairwise_cons.mp hl
    rcases List.mem_cons.mp hr with rfl | hr
    · have hkeep : ∀ t ∈ rest, (!decide (t.IsOf r.user r.wakeup.alarmInstant)) = true := by
        intro t ht
        simpa using not_isOf_of_before (hs t ht)
      rw [List.filter_cons_of_neg (by simp [isOf_self]), List.filter_eq_self.mpr hkeep]
      exact put_of_before hs
    · have hsr : s.Before r := hs r hr
      have hnot : ¬ s.IsOf r.user r.wakeup.alarmInstant := by
        intro h
        refine not_isOf_of_before hsr ?_
        exact ⟨h.1.symm, h.2.symm⟩
      have hlt : ¬ r.Before s := fun h => Record.Before.irrefl r (h.trans hsr)
      rw [List.filter_cons_of_pos (by simpa using hnot), put, if_neg hnot, if_neg hlt,
        put_filter hrest hr]

theorem erase_merge : (rs.merge user w).erase user w.alarmInstant =
    rs.erase user w.alarmInstant := by
  have h := filter_put (r := ⟨user, w⟩)
    (p := fun s => !decide (s.IsOf user w.alarmInstant)) (fun s hs => by simpa using hs) rs.toList
  unfold erase merge
  simp only [h]

/-- Putting back what was there undoes the joining of a wake-up. -/
theorem restore_merge : (rs.merge user w).restore user w.alarmInstant
    (rs.find? user w.alarmInstant) = rs := by
  cases hfind : rs.toList.find? fun r => decide (r.IsOf user w.alarmInstant) with
  | none =>
    have hnone : ∀ r ∈ rs.toList, (!decide (r.IsOf user w.alarmInstant)) = true := by
      simpa using hfind
    unfold find? restore
    rw [hfind, erase_merge]
    unfold erase
    simp only [Option.map_none, List.filter_eq_self.mpr hnone]
  | some r =>
    have hr : r.IsOf user w.alarmInstant := by simpa using List.find?_some hfind
    have hmem : r ∈ rs.toList := List.mem_of_find?_eq_some hfind
    obtain ⟨v, u⟩ := r
    obtain ⟨rfl, hi⟩ := hr
    have hput := put_filter rs.ordered hmem
    unfold find? restore
    rw [hfind, erase_merge]
    unfold erase merge
    dsimp only at hi hput ⊢
    simp only [Option.map_some]
    rw [hi] at hput
    simp only [hput]

/-- The latest wake-up of a user has a record. -/
theorem holds_of_latest? (h : rs.latest? user = some w) : rs.Holds user w.alarmInstant := by
  unfold latest? at h
  obtain ⟨r, hr, rfl⟩ := Option.map_eq_some_iff.mp h
  have hmem := List.mem_of_getLast? hr
  rw [List.mem_filter] at hmem
  exact ⟨r, hmem.1, by simpa using hmem.2, rfl⟩

end Records

/-! ## Stores -/

/-- An upsert that cannot write its file leaves the store as it was. -/
theorem WakeupStore.upsert_unwritten (s : WakeupStore) (user : String) (w : Wakeup)
    (fault : FileFault) : s.upsert user w (.error fault) = (.error (.file s.path fault), s) := by
  unfold upsert merge
  dsimp only
  rw [Records.restore_merge]

end Reveille
