import Mathlib.Control.Monad.Basic
import Reveille.Proofs.Records.History
import Reveille.Proofs.Session.NothingLost
import Reveille.Proofs.Session.Sharing

/-!
# Superseded occurrences

An occurrence takes the place of the ones before it when it rings. A call that acknowledges an
earlier one is refused by comparison with the latest record of the user, so it is refused once the
later occurrence has a record (`Acknowledger.acknowledge_superseded`). As long as that record is
still to be saved the call may find its own occurrence to be the latest : it goes through exactly
if an acknowledgment of it is still awaited by the records and by what fired last
(`World.Awaits`, `Acknowledger.superseded_refused`). Then it silences the alarm of the later
occurrence (`Acknowledger.superseded_acknowledged`).
-/

namespace Reveille

open Activity

/-! ## Awaited acknowledgments -/

/-- An acknowledgment of the occurrence is awaited : the user has no record of a later one, and it
has a record that is not acknowledged, or has none and fired last. -/
def World.Awaits (world : World) (user : String) (T : Instant) : Prop :=
  (∀ i, world.wakeups.records.Holds user i → i ≤ T) ∧
    (world.wakeups.records.find? user T = some (.pending T) ∨
      world.wakeups.records.find? user T = none ∧ world.fired = some T)

/-- What a call looks for, where all that it is told comes from one state of the surroundings. -/
theorem World.awaits_iff {world : World} {user : String} {T : Instant} : world.Awaits user T ↔
    world.wakeups.records.latest? user = some (.pending T) ∨
      (∀ w ∈ world.wakeups.records.latest? user, w.alarmInstant < T) ∧ world.fired = some T := by
  unfold Awaits
  simp only [Records.latest?_eq_some_iff, Records.forall_latest?_lt_iff, Records.holds_iff_find?,
    forall_exists_index]
  constructor
  · rintro ⟨hlast, hpending | ⟨hnone, hfired⟩⟩
    · exact .inl ⟨hpending, hlast⟩
    · exact .inr ⟨⟨hnone, hlast⟩, hfired⟩
  · rintro (⟨hpending, hlast⟩ | ⟨⟨hnone, hlast⟩, hfired⟩)
    · exact ⟨hlast, .inl hpending⟩
    · exact ⟨hlast, .inr ⟨hnone, hfired⟩⟩

namespace Acknowledger

variable {T : Instant} {ack : Acknowledgment} {world : World} {user : String}

/-! ## Calls -/

/-- A call for an occurrence of which no acknowledgment is awaited changes nothing. -/
theorem acknowledge_unawaited (a : Acknowledger) (ack : Acknowledgment) (o : Watch)
    (h : ack.instant < T ∨ ¬ o.world.Awaits a.user T) : (a.acknowledge T ack).Ensures Watch.Meets
      (fun res o' => (∃ fault, res = .error fault) ∧ o' = o) o := by
  refine a.ensures_acknowledge ⟨⟨_, rfl⟩, rfl⟩ fun x o₁ h₁ => ?_
  obtain rfl := Watch.eq_of_question h₁ trivial
  refine ⟨fun _ => ⟨⟨_, rfl⟩, rfl⟩, fun fired o₂ h₂ => ?_⟩
  obtain ⟨rfl, rfl⟩ := Watch.meets_lastFired h₂
  refine ⟨fun _ => ⟨⟨_, rfl⟩, rfl⟩, fun latest hlatest hdated hfound => ?_⟩
  obtain ⟨rfl, -⟩ := Watch.meets_latest h₁ hlatest
  exact absurd (World.awaits_iff.mpr hfound) (h.resolve_left hdated)

/-- What is saved of an acknowledgment that is awaited is that acknowledgment. -/
theorem joined_of_awaits (h : world.Awaits user T) :
    world.wakeups.records.joined user ⟨T, some ack⟩ = ⟨T, some ack⟩ := by
  unfold Records.joined
  obtain ⟨-, hpending | ⟨hnone, -⟩⟩ := h
  · rw [hpending]
    rfl
  · rw [hnone]

/-- A call for an occurrence whose acknowledgment is awaited acknowledges it and goes back to the
silent loop, if its requests are answered. -/
theorem acknowledge_awaited (a : Acknowledger) (ack : Acknowledgment) (o : Watch)
    (h : o.world.Awaits a.user T) (hack : T ≤ ack.instant) :
    (a.acknowledge T ack).Ensures Watch.Answers (fun res o' => res = .ok ⟨T, some ack⟩ ∧
      o'.world.player.playing = some .silent) o := by
  have htarget : (target T (o.world.wakeups.records.latest? a.user) o.world.fired >>=
      (·.acknowledge ack)) = .ok ⟨T, some ack⟩ :=
    target_acknowledge_eq_ok_iff.mpr ⟨World.awaits_iff.mp h, rfl⟩
  have hstored : (o.world.wakeups.upsert a.user ⟨T, some ack⟩ (.ok ())).1 = .ok ⟨T, some ack⟩ :=
    congrArg Except.ok (joined_of_awaits h)
  unfold acknowledge latest
  rw [if_neg hack, ensures_bind, ensures_request_bind]
  intro x o₁ h₁
  obtain rfl := Watch.eq_of_question h₁.meets trivial
  obtain rfl : some (.ok (o.world.wakeups.records.latest? a.user)) = x :=
    congrArg Prod.fst h₁.world
  rw [ensures_pure]
  dsimp only [inTime]
  rw [ensures_request_bind]
  intro fired o₂ h₂
  obtain ⟨rfl, rfl⟩ := Watch.meets_lastFired h₂.meets
  rw [htarget]
  dsimp only
  unfold conclude
  rw [ensures_request_bind]
  intro reply o₃ h₃
  obtain rfl : some (.ok ⟨T, some ack⟩) = reply := hstored ▸ congrArg Prod.fst h₃.world
  dsimp only [inTime]
  unfold silence
  rw [ensures_bind, ensures_request_bind]
  intro _ o₄ _
  rw [ensures_request_bind]
  intro _ o₅ h₅
  exact ⟨rfl, congrArg (fun r => r.2.player.playing) h₅.world.symm⟩

end Acknowledger

/-! ## Calls amid others -/

/-- Whatever happens, an occurrence that has a record keeps it. -/
theorem World.holds_after (world : World) (incident : Incident) {user : String} {i : Instant}
    (h : world.wakeups.records.Holds user i) :
    (world.after incident).wakeups.records.Holds user i := by
  obtain hr | ⟨user', w, hr⟩ := world.records_after incident <;> rw [hr]
  · exact h
  · exact Records.holds_merge.mpr (.inl h)

theorem World.holds_afterAll {world : World} {user : String} {i : Instant}
    (incidents : List Incident) (h : world.wakeups.records.Holds user i) :
    (world.afterAll incidents).wakeups.records.Holds user i :=
  World.afterAll_keeps (p := fun world => world.wakeups.records.Holds user i)
    (fun world incident _ => world.holds_after incident) incidents (fun _ _ => trivial) h

theorem Shared.holds_of_meets {p : Turn → Prop} {s s' : Shared} {r : Request} {x : r.Result}
    {user : String} {i : Instant} (hm : Meets p s r x s')
    (h : s.world.wakeups.records.Holds user i) : s'.world.wakeups.records.Holds user i := by
  obtain ⟨turn, -, hm⟩ := hm
  cases hm
  exact World.holds_after _ (.request r turn.fate) (World.holds_afterAll turn.before h)

namespace Acknowledger

variable {T₁ T₂ : Instant}

/-- The call has done nothing but ask. -/
def HasOnlyAsked (user : String) (s : Shared) : Prop :=
  ∀ e ∈ s.exchanges, e.request = .latest user ∨ e.request = .lastFired

theorem HasOnlyAsked.of_meets {user : String} {p : Turn → Prop} {s s' : Shared} {r : Request}
    {x : r.Result} (h : HasOnlyAsked user s) (hm : Shared.Meets p s r x s')
    (hr : r = .latest user ∨ r = .lastFired) : HasOnlyAsked user s' := by
  intro e he
  rw [Shared.exchanges_of_meets hm] at he
  rcases List.mem_append.mp he with he | he
  · exact h e he
  · rw [List.mem_singleton.mp he]
    exact hr

/-- A call for an occurrence asks and is refused once a later one has a record, whatever others do
meanwhile. -/
theorem acknowledge_superseded (a : Acknowledger) (ack : Acknowledgment) {p : Turn → Prop}
    (hlt : T₁ < T₂) (s : Shared) (h : s.world.wakeups.records.Holds a.user T₂)
    (hs : HasOnlyAsked a.user s) : (a.acknowledge T₁ ack).Ensures (Shared.Meets p)
      (fun res s' => (∃ fault, res = .error fault) ∧ HasOnlyAsked a.user s') s := by
  refine a.ensures_acknowledge ⟨⟨_, rfl⟩, hs⟩ fun x s₁ h₁ => ?_
  have hs₁ := hs.of_meets h₁ (.inl rfl)
  have hheld := Shared.holds_of_meets h₁ h
  refine ⟨fun _ => ⟨⟨_, rfl⟩, hs₁⟩, fun fired s₂ h₂ => ?_⟩
  refine ⟨fun _ => ⟨⟨_, rfl⟩, hs₁.of_meets h₂ (.inr rfl)⟩, fun latest hlatest _ hfound => ?_⟩
  obtain rfl := inTime_eq_ok hlatest
  obtain rfl : latest = s₁.world.wakeups.records.latest? a.user := by
    simpa using Shared.latest_of_meets h₁ rfl
  obtain ⟨w, hw⟩ := Records.holds_iff_find?.mp hheld
  have hle : T₂ ≤ T₁ := by
    rcases hfound with hlatest | ⟨hearlier, -⟩
    · exact (Records.latest?_eq_some_iff.mp hlatest).2 T₂ w hw
    · exact (Records.forall_latest?_lt_iff.mp hearlier).2 T₂ w hw
  exact absurd hlt hle

/-! ## The theorem -/

/-- In every course of a session in which `T₂` has rung, of a call for an earlier occurrence : if
the record of `T₂` is not still to be saved, or the surroundings await no acknowledgment of the
earlier occurrence, or the acknowledgment is dated before it, the call fails and leaves everything
as it was, however its requests fare. Once `T₂` has been saved it also does so amid others, and asks
for nothing else than the latest wake-up and the occurrence that fired last. Where the surroundings
await the acknowledgment and the requests are answered, the call goes through, back to the silent
loop. -/
theorem superseded_refused (user : String) (zone : Zone) (settings : Settings) (world : World)
    (course : List (Deed × List Fate)) (T₁ T₂ : Instant) (ack : Acknowledgment)
    (hrung : T₂ ∈ rung ((Scene.start user zone settings world).run course).1) (hlt : T₁ < T₂) :
    let s := ((Scene.start user zone settings world).run course).2
    let a := Acknowledger.new s.session.user s.session.settings
    ((.pending T₂ ∉ s.session.unsaved ∨ ¬ s.world.Awaits user T₁ ∨ ack.instant < T₁) →
      ∀ fates, ∃ fault, s.carryOut (.acknowledge T₁ ack) fates =
        (⟨.acknowledge T₁ ack, .acknowledged (.error fault), []⟩, s)) ∧
      (.pending T₂ ∉ s.session.unsaved → ∀ turns,
        let call := (a.acknowledge T₁ ack).runAmid turns ⟨s.world, []⟩
        (∃ fault, call.1 = .error fault) ∧ HasOnlyAsked user call.2) ∧
      (s.world.Awaits user T₁ → T₁ ≤ ack.instant →
        (s.carryOut (.acknowledge T₁ ack) []).1.outcome = .acknowledged (.ok ⟨T₁, some ack⟩) ∧
          (s.carryOut (.acknowledge T₁ ack) []).2.world.player.playing = some .silent) := by
  intro s a
  have huser : a.user = user := (ringsOnce_run user zone settings world course).user_eq
  have hkept := (kept_run user zone settings world course).covered T₂ hrung
  have hheld : .pending T₂ ∉ s.session.unsaved → s.world.wakeups.records.Holds user T₂ :=
    fun h => hkept.resolve_right h
  refine ⟨fun h fates => ?_, fun h turns => ?_, fun h hack => ?_⟩
  · have hnot : ack.instant < T₁ ∨ ¬ s.world.Awaits a.user T₁ := by
      rw [huser]
      rcases h with hsaved | h | h
      · exact .inr fun hawaits => hawaits.1 T₂ (hheld hsaved) hlt
      · exact .inr h
      · exact .inl h
    obtain ⟨⟨fault, hfault⟩, hsame⟩ :=
      (a.acknowledge_unawaited ack ⟨s.world, []⟩ hnot).runWith fates
    refine ⟨fault, ?_⟩
    unfold Scene.carryOut
    dsimp only
    rw [hfault, hsame]
  · have hend := (a.acknowledge_superseded ack (p := fun _ => True) hlt ⟨s.world, []⟩
      (huser ▸ hheld h) fun _ he => absurd he List.not_mem_nil).runAmid trivial
      fun _ (_ : _ ∈ turns) => trivial
    rwa [huser] at hend
  · obtain ⟨hres, hsilent⟩ :=
      (a.acknowledge_awaited ack ⟨s.world, []⟩ (huser ▸ h) hack).runAnswered
    exact ⟨congrArg Outcome.acknowledged hres, hsilent⟩

/-- Midnight at 05:30 east rings twice, a day apart; the second time its file cannot be written.
The first occurrence has been acknowledged in time, and a second call for it is refused while the
later occurrence is still to be saved. -/
theorem superseded_refused_midnight :
    let midnight : Instant := ⟨1781116200, 0, by decide, by decide, by decide, by decide⟩
    let next : Instant := ⟨1781202600, 0, by decide, by decide, by decide, by decide⟩
    let world : World :=
      .new ⟨"config", ⟨.defaults, [⟨"ada", ⟨0, 0⟩⟩]⟩, none⟩ ⟨"wakeups", .empty, none⟩
    let course : List (Deed × List Fate) :=
      [(.tick midnight, []), (.acknowledge midnight ⟨midnight, none⟩, []),
        (.tick next, [.answered, .answered, .unwritten .isDirectory])]
    let log := ((Scene.start "ada" (.fixed 19800) .defaults world).run course).1
    let s := ((Scene.start "ada" (.fixed 19800) .defaults world).run course).2
    next ∈ rung log ∧ midnight < next ∧ .pending next ∈ s.session.unsaved ∧
      s.world.player.isRinging = true ∧
      ∀ fates, ∃ fault, s.carryOut (.acknowledge midnight ⟨next, none⟩) fates =
        (⟨.acknowledge midnight ⟨next, none⟩, .acknowledged (.error fault), []⟩, s) := by
  dsimp only
  refine ⟨by decide +kernel, by decide, by decide +kernel, by decide +kernel, ?_⟩
  refine (superseded_refused "ada" (.fixed 19800) .defaults _ _ _
    ⟨1781202600, 0, by decide, by decide, by decide, by decide⟩ _ (by decide +kernel)
    (by decide)).1 (.inr (.inl fun h => ?_))
  rcases h.2 with hpending | ⟨hmissing, -⟩
  · exact absurd hpending (by decide +kernel)
  · exact absurd hmissing (by decide +kernel)

/-- Midnight at 05:30 east rings twice, a day apart, the first occurrence is not acknowledged, and
the file cannot be written when the second one rings. A call for the first occurrence half a minute
later acknowledges it, and silences the alarm of the second one. -/
theorem superseded_acknowledged :
    let midnight : Instant := ⟨1781116200, 0, by decide, by decide, by decide, by decide⟩
    let next : Instant := ⟨1781202600, 0, by decide, by decide, by decide, by decide⟩
    let later : Instant := ⟨1781202630, 0, by decide, by decide, by decide, by decide⟩
    let world : World :=
      .new ⟨"config", ⟨.defaults, [⟨"ada", ⟨0, 0⟩⟩]⟩, none⟩ ⟨"wakeups", .empty, none⟩
    let course : List (Deed × List Fate) :=
      [(.tick midnight, []), (.tick next, [.answered, .answered, .unwritten .isDirectory])]
    let log := ((Scene.start "ada" (.fixed 19800) .defaults world).run course).1
    let s := ((Scene.start "ada" (.fixed 19800) .defaults world).run course).2
    let call := ((Acknowledger.new "ada" .defaults).acknowledge midnight ⟨later, none⟩).runWith []
      ⟨s.world, []⟩
    next ∈ rung log ∧ midnight < next ∧ .pending next ∈ s.session.unsaved ∧
      s.world.wakeups.records.find? "ada" midnight = some (.pending midnight) ∧
      s.world.player.isRinging = true ∧ call.1 = .ok ⟨midnight, some ⟨later, none⟩⟩ ∧
      call.2.world.wakeups.records.find? "ada" midnight =
        some ⟨midnight, some ⟨later, none⟩⟩ ∧
      call.2.world.player.isRinging = false := by
  decide +kernel

end Acknowledger

end Reveille
