import Reveille.Proofs.Records
import Reveille.Proofs.Session.Ensures

/-!
# What is kept of the occurrences that have rung

The invariant `Kept` ties together the occurrences that have rung, the wake-ups that are still to
be saved, and the records. It holds between any two requests : an occurrence counts as still to be
saved from the moment in which it is published as fired, so the way from there to its record has
no gap. What requests do to the records and to what fired last is said for each kind of them
(`Watch.meets_upsert`, `Watch.meets_fire`, `Watch.kept_of_meets`).
-/

namespace Reveille

/-- What the occurrences that have rung, the wake-ups still to be saved and the records have in
common. -/
structure Kept (user : String) (initial : Records) (rung : List Instant) (unsaved : List Wakeup)
    (world : World) : Prop where
  /-- Nothing that has rung is lost. -/
  covered : ∀ i ∈ rung, world.wakeups.records.Holds user i ∨ .pending i ∈ unsaved
  initial_held : ∀ i, initial.Holds user i → world.wakeups.records.Holds user i
  /-- Nothing appears that has not rung. -/
  origin : ∀ i, world.wakeups.records.Holds user i → initial.Holds user i ∨ i ∈ rung
  others_eq : world.wakeups.records.others user = initial.others user
  unsaved_sublist : unsaved.Sublist (rung.map .pending)
  fired_mem : ∀ i, world.fired = some i → i ∈ rung

namespace Kept

variable {user : String} {initial : Records} {rung : List Instant} {us later : List Wakeup}
  {w : Wakeup} {i : Instant} {world world' : World}

/-- Only the records and what fired last matter of a world. -/
theorem congr (h : Kept user initial rung us world)
    (hr : world'.wakeups.records = world.wakeups.records) (hf : world'.fired = world.fired) :
    Kept user initial rung us world' := by
  refine ⟨?_, ?_, ?_, ?_, h.unsaved_sublist, ?_⟩
  · rw [hr]
    exact h.covered
  · rw [hr]
    exact h.initial_held
  · rw [hr]
    exact h.origin
  · rw [hr]
    exact h.others_eq
  · rw [hf]
    exact h.fired_mem

/-- A wake-up is joined whose occurrence has rung or has a record. -/
theorem merge (h : Kept user initial rung us world)
    (hw : w.alarmInstant ∈ rung ∨ world.wakeups.records.Holds user w.alarmInstant)
    (hr : world'.wakeups.records = world.wakeups.records.merge user w)
    (hf : world'.fired = world.fired) : Kept user initial rung us world' := by
  have hheld : ∀ i, world'.wakeups.records.Holds user i ↔
      world.wakeups.records.Holds user i ∨ w.alarmInstant = i := by
    intro i
    rw [hr, Records.holds_merge]
    simp
  refine ⟨fun i hi => ?_, fun i hi => ?_, fun i hi => ?_, ?_, h.unsaved_sublist, ?_⟩
  · rw [hheld]
    exact (h.covered i hi).imp_left .inl
  · exact (hheld i).mpr (.inl (h.initial_held i hi))
  · rcases (hheld i).mp hi with hi | rfl
    · exact h.origin i hi
    · exact hw.elim .inr (h.origin _)
  · rw [hr, Records.others_merge]
    exact h.others_eq
  · rw [hf]
    exact h.fired_mem

/-- A wake-up that has a record need not be saved any more. -/
theorem drop (h : Kept user initial rung (us ++ w :: later) world)
    (hw : world.wakeups.records.Holds user w.alarmInstant) :
    Kept user initial rung (us ++ later) world := by
  refine ⟨fun i hi => ?_, h.initial_held, h.origin, h.others_eq, ?_, h.fired_mem⟩
  · rcases h.covered i hi with hi | hi
    · exact .inl hi
    · rcases List.mem_append.mp hi with hi | hi
      · exact .inr (List.mem_append_left _ hi)
      · rcases List.mem_cons.mp hi with rfl | hi
        · exact .inl hw
        · exact .inr (List.mem_append_right _ hi)
  · refine List.Sublist.trans ?_ h.unsaved_sublist
    exact (List.Sublist.refl us).append (List.sublist_cons_self w later)

/-- What is to be saved has rung. -/
theorem mem_rung (h : Kept user initial rung us world) (hw : w ∈ us) :
    w.alarmInstant ∈ rung := by
  obtain ⟨i, hi, rfl⟩ := List.mem_map.mp (h.unsaved_sublist.subset hw)
  exact hi

/-- An occurrence fires, and is to be saved from then on. -/
theorem fire (h : Kept user initial rung us world)
    (hr : world'.wakeups.records = world.wakeups.records) (hf : world'.fired = some i) :
    Kept user initial (rung ++ [i]) (us ++ [.pending i]) world' := by
  refine ⟨fun j hj => ?_, ?_, fun j hj => ?_, ?_, ?_, fun j hj => ?_⟩
  · rw [hr]
    rcases List.mem_append.mp hj with hj | hj
    · exact (h.covered j hj).imp_right (List.mem_append_left _)
    · rw [List.mem_singleton.mp hj]
      exact .inr (by simp)
  · rw [hr]
    exact h.initial_held
  · rw [hr] at hj
    exact (h.origin j hj).imp_right (List.mem_append_left _)
  · rw [hr]
    exact h.others_eq
  · rw [List.map_append]
    exact h.unsaved_sublist.append (List.Sublist.refl _)
  · rw [hf, Option.some.injEq] at hj
    exact hj ▸ List.mem_append_right _ (List.mem_singleton_self i)

end Kept

/-! ## Requests -/

/-- An upsert joins the wake-up, or changes no record and does not reply with one. -/
theorem World.upsert_cases (store : WakeupStore) (user : String) (w : Wakeup) (fate : Fate) :
    (World.upsert store user w fate).2.records = store.records.merge user w ∨
      (World.upsert store user w fate).2.records = store.records ∧
        ∀ stored, (World.upsert store user w fate).1 ≠ some (.ok stored) := by
  cases fate with
  | answered => exact .inl rfl
  | down reason => exact .inr ⟨rfl, by rintro stored ⟨⟩⟩
  | unwritten fault =>
    dsimp only [upsert]
    rw [store.upsert_unwritten user w fault]
    exact .inr ⟨rfl, by rintro stored ⟨⟩⟩
  | givenUp stage =>
    cases stage with
    | untouched => exact .inr ⟨rfl, by rintro stored ⟨⟩⟩
    | merged => exact .inl rfl
    | written => exact .inl rfl

/-- The request changes no record and lets nothing fire. -/
def Request.KeepsRecords : Request → Prop
  | .upsert _ _ => False
  | .fire _ => False
  | _ => True

namespace Watch

variable {s s' : Watch}

theorem kept_of_meets {r : Request} {x : r.Result} {user : String} {initial : Records}
    {rung : List Instant} {us : List Wakeup} (hm : s.Meets r x s') (hr : r.KeepsRecords)
    (h : Kept user initial rung us s.world) : Kept user initial rung us s'.world := by
  obtain ⟨fate, hm⟩ := hm
  cases r with
  | upsert user w => exact hr.elim
  | fire i => exact hr.elim
  | announce a =>
    cases hm
    refine h.congr ?_ ?_ <;> dsimp only [World.answer] <;> split <;> rfl
  | _ =>
    cases hm
    exact h.congr rfl rfl

/-- An activity of requests that change no record keeps what is kept. -/
theorem kept_of_asks {α : Type} {a : Activity α} {user : String} {initial : Records}
    {rung : List Instant} {us : List Wakeup} (ha : a.Asks Request.KeepsRecords)
    (h : Kept user initial rung us s.world) :
    a.Ensures Watch.Meets (fun _ s' => Kept user initial rung us s'.world) s :=
  ha.ensures (fun _ _ _ _ hr h hm => kept_of_meets hm hr h) h

theorem meets_upsert {user : String} {w : Wakeup} {x : Reply Wakeup}
    (hm : s.Meets (.upsert user w) x s') :
    s'.world.fired = s.world.fired ∧
      (s'.world.wakeups.records = s.world.wakeups.records.merge user w ∨
        s'.world.wakeups.records = s.world.wakeups.records ∧ ∀ stored, x ≠ some (.ok stored)) := by
  obtain ⟨fate, hm⟩ := hm
  cases hm
  exact ⟨rfl, World.upsert_cases _ _ _ _⟩

theorem meets_fire {i : Instant} {x : Unit} (hm : s.Meets (.fire i) x s') :
    s'.world.wakeups = s.world.wakeups ∧ s'.world.fired = some i := by
  obtain ⟨fate, hm⟩ := hm
  cases hm
  exact ⟨rfl, rfl⟩

theorem meets_lastFired {x : Option Instant} (hm : s.Meets .lastFired x s') :
    x = s.world.fired ∧ s' = s := by
  obtain ⟨fate, hm⟩ := hm
  cases hm
  exact ⟨rfl, by simp [Request.notice?]⟩

/-- The reply to the question for the latest wake-up is the one with the latest record. -/
theorem meets_latest {user : String} {limit : Nat} {x : Reply (Option Wakeup)}
    {latest : Option Wakeup} (hm : s.Meets (.latest user) x s')
    (hx : inTime limit x = .ok latest) :
    latest = s.world.wakeups.records.latest? user ∧ s'.world = s.world := by
  obtain ⟨fate, hm⟩ := hm
  cases hm
  refine ⟨?_, rfl⟩
  cases fate <;> cases hx <;> rfl

end Watch

end Reveille
