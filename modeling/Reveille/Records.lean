import Reveille.Wakeup

/-!
# Records of wake-ups

The wake-ups of all users, one `Record` for a user and an alarm instant, in the order of
users and then of instants. `Records.merge` joins a wake-up to the record of its occurrence,
or adds a record where there is none, and keeps the order; so the last record of a user,
`latest?`, is the one with the latest alarm instant.
-/

namespace Reveille

/-- A wake-up of a user. -/
structure Record where
  user : String
  wakeup : Wakeup
  deriving DecidableEq

namespace Record

/-- The record is of this user and occurrence. -/
def IsOf (r : Record) (user : String) (i : Instant) : Prop :=
  r.user = user ∧ r.wakeup.alarmInstant = i

instance (r : Record) (user : String) (i : Instant) : Decidable (r.IsOf user i) :=
  inferInstanceAs (Decidable (r.user = user ∧ r.wakeup.alarmInstant = i))

/-- The order of records : by user, then by alarm instant. -/
def Before (r s : Record) : Prop :=
  r.user < s.user ∨ (r.user = s.user ∧ r.wakeup.alarmInstant < s.wakeup.alarmInstant)

instance (r s : Record) : Decidable (r.Before s) :=
  inferInstanceAs (Decidable
    (r.user < s.user ∨ (r.user = s.user ∧ r.wakeup.alarmInstant < s.wakeup.alarmInstant)))

/-! ## The order -/

theorem Before.trans {r s t : Record} (h : r.Before s) (h' : s.Before t) : r.Before t := by
  rcases h with h | ⟨h, hi⟩ <;> rcases h' with h' | ⟨h', hi'⟩
  · exact .inl (String.lt_trans h h')
  · exact .inl (h' ▸ h)
  · exact .inl (h ▸ h')
  · exact .inr ⟨h.trans h', Instant.lt_trans hi hi'⟩

theorem Before.irrefl (r : Record) : ¬ r.Before r := by
  rintro (h | ⟨-, h⟩)
  · exact String.lt_irrefl _ h
  · exact Instant.lt_irrefl _ h

theorem before_of_not {r s : Record} (hne : ¬ r.IsOf s.user s.wakeup.alarmInstant)
    (h : ¬ s.Before r) : r.Before s := by
  have hle : r.user ≤ s.user := String.not_lt.mp fun hlt => h (.inl hlt)
  by_cases hlt : r.user < s.user
  · exact .inl hlt
  have heq : r.user = s.user := String.le_antisymm hle (String.not_lt.mp hlt)
  by_cases hi : r.wakeup.alarmInstant < s.wakeup.alarmInstant
  · exact .inr ⟨heq, hi⟩
  have hi' : ¬ s.wakeup.alarmInstant < r.wakeup.alarmInstant :=
    fun hlt => h (.inr ⟨heq.symm, hlt⟩)
  exact absurd ⟨heq, Instant.eq_of_not_lt hi hi'⟩ hne

end Record

/-! ## Collections of records -/

/-- The records of all users in their order. -/
structure Records where
  toList : List Record
  ordered : toList.Pairwise Record.Before

namespace Records

instance : DecidableEq Records := fun a b =>
  decidable_of_iff (a.toList = b.toList) ⟨fun h => by cases a; cases b; simp_all, fun h => h ▸ rfl⟩

def empty : Records := ⟨[], .nil⟩

instance : Inhabited Records := ⟨empty⟩

/-- A record joined to the one of its occurrence, or put in its place. -/
def put (r : Record) : List Record → List Record
  | [] => [r]
  | s :: rest =>
    if s.IsOf r.user r.wakeup.alarmInstant then { s with wakeup := s.wakeup.merge r.wakeup } :: rest
    else if r.Before s then r :: s :: rest
    else s :: put r rest

theorem before_of_mem_put {r t : Record} (ht : t.Before r) : ∀ {rs : List Record},
    (∀ s ∈ rs, t.Before s) → ∀ s ∈ put r rs, t.Before s
  | [], _, s, hs => by
    simp only [put, List.mem_singleton] at hs
    exact hs ▸ ht
  | u :: rest, h, s, hs => by
    unfold put at hs
    split at hs
    · rcases List.mem_cons.mp hs with rfl | hs
      · exact h u List.mem_cons_self
      · exact h s (List.mem_cons_of_mem _ hs)
    · split at hs
      · rcases List.mem_cons.mp hs with rfl | hs
        · exact ht
        · exact h s hs
      · rcases List.mem_cons.mp hs with rfl | hs
        · exact h s List.mem_cons_self
        · exact before_of_mem_put ht (fun s hs => h s (List.mem_cons_of_mem _ hs)) s hs

theorem ordered_put (r : Record) : ∀ {rs : List Record}, rs.Pairwise Record.Before →
    (put r rs).Pairwise Record.Before
  | [], _ => by simp [put]
  | s :: rest, h => by
    obtain ⟨hs, hrest⟩ := List.pairwise_cons.mp h
    unfold put
    split
    · exact List.pairwise_cons.mpr ⟨fun t ht => hs t ht, hrest⟩
    · next hne =>
      split
      · next hlt =>
        refine List.pairwise_cons.mpr ⟨fun t ht => ?_, h⟩
        rcases List.mem_cons.mp ht with rfl | ht
        · exact hlt
        · exact hlt.trans (hs t ht)
      · next hnlt =>
        exact List.pairwise_cons.mpr
          ⟨before_of_mem_put (Record.before_of_not hne hnlt) hs, ordered_put r hrest⟩

/-- The records with a wake-up of a user joined to them. -/
def merge (rs : Records) (user : String) (w : Wakeup) : Records :=
  ⟨put ⟨user, w⟩ rs.toList, ordered_put _ rs.ordered⟩

/-- The record of an occurrence. -/
def find? (rs : Records) (user : String) (i : Instant) : Option Wakeup :=
  (rs.toList.find? fun r => decide (r.IsOf user i)).map Record.wakeup

/-- What the record of a wake-up's occurrence is once the wake-up has been joined to it. -/
def joined (rs : Records) (user : String) (w : Wakeup) : Wakeup :=
  match rs.find? user w.alarmInstant with
  | some stored => stored.merge w
  | none => w

/-- The user's wake-up with the latest alarm instant. -/
def latest? (rs : Records) (user : String) : Option Wakeup :=
  (rs.toList.filter (·.user = user)).getLast?.map Record.wakeup

/-- The records without that of one occurrence. -/
def erase (rs : Records) (user : String) (i : Instant) : Records :=
  ⟨rs.toList.filter fun r => !decide (r.IsOf user i), rs.ordered.filter _⟩

/-- The records with that of one occurrence as it was before. -/
def restore (rs : Records) (user : String) (i : Instant) : Option Wakeup → Records
  | some previous => (rs.erase user i).merge user previous
  | none => rs.erase user i

/-- Records joined one after the other. -/
def ofList (entries : List Record) : Records :=
  entries.foldl (fun rs r => rs.merge r.user r.wakeup) empty

end Records

end Reveille
