/-!
# Checks in an order

A `Check` is a condition with the fault that there is if it does not hold. A result is decided by a
list of checks (`Decides`) if it is the fault of the first that fails (`FirstFailing`), and no fault
if all hold. A computation that makes one check after the other is decided by them in that order
(`Decides.cons`, `Decides.bind`), and then it succeeds exactly if all hold (`Decides.ok_iff`) and
ends in a fault exactly if that is the first (`Decides.error_iff`).
-/

namespace Reveille

/-- A condition, and the fault that there is if it does not hold. -/
structure Check (ε : Type) where
  holds : Prop
  fault : ε

variable {ε α β : Type} {check : Check ε} {checks more : List (Check ε)} {fault : ε}
  {result : Except ε α}

/-! ## The first check that fails -/

/-- The fault is that of the first check that fails. -/
def FirstFailing (checks : List (Check ε)) (fault : ε) : Prop :=
  ∃ passed check rest, checks = passed ++ check :: rest ∧ (∀ c ∈ passed, c.holds) ∧
    ¬ check.holds ∧ check.fault = fault

theorem firstFailing_cons_iff : FirstFailing (check :: checks) fault ↔
    ¬ check.holds ∧ check.fault = fault ∨ check.holds ∧ FirstFailing checks fault := by
  constructor
  · rintro ⟨passed, failing, rest, h, hpassed, hfails, hfault⟩
    cases passed with
    | nil =>
      cases h
      exact .inl ⟨hfails, hfault⟩
    | cons first passed =>
      cases h
      obtain ⟨hfirst, hpassed⟩ := List.forall_mem_cons.mp hpassed
      exact .inr ⟨hfirst, passed, failing, rest, rfl, hpassed, hfails, hfault⟩
  · rintro (⟨hfails, hfault⟩ | ⟨hholds, passed, failing, rest, rfl, hpassed, hfails, hfault⟩)
    · exact ⟨[], check, checks, rfl, fun _ h => absurd h List.not_mem_nil, hfails, hfault⟩
    · exact ⟨check :: passed, failing, rest, rfl, List.forall_mem_cons.mpr ⟨hholds, hpassed⟩,
        hfails, hfault⟩

/-- Checks in an order have one first fault. -/
theorem FirstFailing.eq {fault' : ε} (h : FirstFailing checks fault)
    (h' : FirstFailing checks fault') : fault = fault' := by
  induction checks with
  | nil =>
    obtain ⟨passed, _, _, hnil, -⟩ := h
    simp at hnil
  | cons check checks ih =>
    rcases firstFailing_cons_iff.mp h with ⟨hfails, rfl⟩ | ⟨hholds, h⟩ <;>
      rcases firstFailing_cons_iff.mp h' with ⟨hfails', rfl⟩ | ⟨hholds', h'⟩
    · rfl
    · exact absurd hholds' hfails
    · exact absurd hholds hfails'
    · exact ih h h'

/-- Where one fails first, not all checks hold. -/
theorem FirstFailing.not_forall (h : FirstFailing checks fault) : ¬ ∀ c ∈ checks, c.holds := by
  obtain ⟨passed, failing, rest, rfl, -, hfails, -⟩ := h
  exact fun hall => hfails (hall failing (List.mem_append_right passed List.mem_cons_self))

/-! ## Decided results -/

/-- Only a success has a value. -/
theorem toOption_eq_some_iff {a : α} : result.toOption = some a ↔ result = .ok a := by
  cases result with
  | ok b =>
    rw [Except.ok.injEq]
    exact Option.some_inj
  | error fault => exact ⟨nofun, nofun⟩

/-- The checks decide the result : a fault is that of the first that fails, and without a fault all
of them hold. -/
def Decides (checks : List (Check ε)) : Except ε α → Prop
  | .ok _ => ∀ c ∈ checks, c.holds
  | .error fault => FirstFailing checks fault

namespace Decides

theorem ok_nil (a : α) : Decides ([] : List (Check ε)) (.ok a) :=
  fun _ h => absurd h List.not_mem_nil

theorem cons (hholds : check.holds) (h : Decides checks result) :
    Decides (check :: checks) result := by
  cases result with
  | ok a => exact List.forall_mem_cons.mpr ⟨hholds, h⟩
  | error fault => exact firstFailing_cons_iff.mpr (.inr ⟨hholds, h⟩)

theorem of_not (hfails : ¬ check.holds) :
    Decides (check :: checks) (.error check.fault : Except ε α) :=
  firstFailing_cons_iff.mpr (.inl ⟨hfails, rfl⟩)

theorem append (hall : ∀ c ∈ checks, c.holds) (h : Decides more result) :
    Decides (checks ++ more) result := by
  induction checks with
  | nil => exact h
  | cons check checks ih =>
    obtain ⟨hholds, hall⟩ := List.forall_mem_cons.mp hall
    exact cons hholds (ih hall)

/-- The checks of a step come before those of the steps after it. -/
theorem bind {f : α → Except ε β} (h : Decides checks result)
    (hmore : ∀ a, result = .ok a → Decides more (f a)) :
    Decides (checks ++ more) (result >>= f) := by
  cases result with
  | ok a => exact append h (hmore a rfl)
  | error fault =>
    obtain ⟨passed, failing, rest, rfl, hpassed, hfails, hfault⟩ := h
    exact ⟨passed, failing, rest ++ more, List.append_assoc .., hpassed, hfails, hfault⟩

theorem map (h : Decides checks result) (f : α → β) :
    Decides checks (result >>= fun a => .ok (f a)) := by
  cases result <;> exact h

theorem ok_iff (h : Decides checks result) :
    (∃ a, result = .ok a) ↔ ∀ c ∈ checks, c.holds := by
  cases result with
  | ok a => exact ⟨fun _ => h, fun _ => ⟨a, rfl⟩⟩
  | error fault =>
    exact ⟨fun ⟨_, ha⟩ => (nomatch ha), fun hall => absurd hall (FirstFailing.not_forall h)⟩

theorem error_iff (h : Decides checks result) :
    result = .error fault ↔ FirstFailing checks fault := by
  cases result with
  | ok a => exact ⟨nofun, fun hfirst => absurd h hfirst.not_forall⟩
  | error fault' =>
    rw [Except.error.injEq]
    exact ⟨fun heq => heq ▸ h, fun hfirst => FirstFailing.eq h hfirst⟩

end Decides

end Reveille
