import Reveille.Proofs.Session.AcknowledgesAgain
import Reveille.Proofs.Session.Superseded

/-!
# What a call comes to

A call that acknowledges an occurrence, and has its surroundings to itself, comes to a verdict that
depends on the date of the acknowledgment, on the user's latest wake-up, on the occurrence that
fired last and on what becomes of its read and of its upsert (`Acknowledger.verdict`). If the upsert
succeeds or has no effect, then either the call returns the acknowledged wake-up, the record of the
occurrence is that wake-up and no other record has changed, or the call fails and nothing has
changed (`Acknowledger.acknowledges_or_leaves`).
-/

namespace Reveille

open Activity

/-! ## Fates of requests -/

/-- A command that meets this fate reaches the player. -/
def Fate.Reaches (fate : Fate) : Prop := ∀ reason, fate ≠ .down reason

/-- An upsert that meets this fate succeeds or has no effect. -/
def Fate.IsWhole (fate : Fate) : Prop := fate.joins = true → fate = .answered

instance (fate : Fate) : Decidable fate.IsWhole :=
  inferInstanceAs (Decidable (fate.joins = true → fate = .answered))

/-- Such an upsert replies with the joined wake-up, which is written to the file too, or it comes to
a fault and leaves the store as it was. -/
theorem World.upsert_of_isWhole (store : WakeupStore) (user : String) (w : Wakeup) (limit : Nat)
    {fate : Fate} (h : fate.IsWhole) :
    World.upsert store user w fate =
        (some (.ok (store.records.joined user w)), (store.merge user w).flush) ∨
      (∃ fault, inTime limit (World.upsert store user w fate).1 = .error fault) ∧
        (World.upsert store user w fate).2 = store := by
  cases fate with
  | answered => exact .inl rfl
  | down reason => exact .inr ⟨⟨_, rfl⟩, rfl⟩
  | unwritten fault =>
    right
    dsimp only [upsert]
    rw [store.upsert_unwritten user w fault]
    exact ⟨⟨_, rfl⟩, rfl⟩
  | givenUp stage =>
    cases stage with
    | untouched => exact .inr ⟨⟨_, rfl⟩, rfl⟩
    | merged => cases h rfl
    | written => cases h rfl

/-- Between two states of the surroundings the store has taken up a wake-up : it is the record of
its occurrence, in the file too, and no other record has changed. -/
structure World.TakesUp (before after : World) (user : String) (w : Wakeup) : Prop where
  record : after.wakeups.records.find? user w.alarmInstant = some w
  others : ∀ user' i, ¬ (user' = user ∧ i = w.alarmInstant) →
    after.wakeups.records.find? user' i = before.wakeups.records.find? user' i
  file : after.wakeups.file = some after.wakeups.records.fileText

theorem World.takesUp_of_merge {before after : World} {user : String} {w : Wakeup}
    (hjoined : before.wakeups.records.joined user w = w)
    (h : after.wakeups = (before.wakeups.merge user w).flush) : before.TakesUp after user w := by
  have hrecords : after.wakeups.records = before.wakeups.records.merge user w := by
    rw [h]
    rfl
  refine ⟨?_, fun user' i hne => ?_, ?_⟩
  · rw [hrecords, Records.find?_merge _ ⟨user, w⟩, if_pos ⟨rfl, rfl⟩]
    exact congrArg some hjoined
  · rw [hrecords, Records.find?_merge _ ⟨user, w⟩, if_neg fun hof => hne ⟨hof.1.symm, hof.2.symm⟩]
  · rw [h]
    rfl

namespace Acknowledger

variable {T : Instant} {ack : Acknowledgment}

/-! ## The verdict -/

/-- Why an occurrence is not acknowledged : the user's latest wake-up is a later one, or is the one
of the occurrence and acknowledged, or is not the one of the occurrence, nor did that fire last. -/
def refusal? (T : Instant) (latest : Option Wakeup) (fired : Option Instant) : Option Refusal :=
  if let some w := latest.filter (T < ·.alarmInstant) then some (.superseded T w.alarmInstant)
  else if ∃ w ∈ latest, w.alarmInstant = T ∧ w.isAcknowledged then some (.alreadyAcknowledged T)
  else if (∀ w ∈ latest, w.alarmInstant ≠ T) ∧ fired ≠ some T then some (.notTriggered T)
  else none

/-- What a call comes to, `read` and `write` being the fates of its read and of its upsert. -/
def verdict (a : Acknowledger) (world : World) (T : Instant) (ack : Acknowledgment)
    (read write : Fate) : Except SessionFault Wakeup :=
  if ack.instant < T then .error (.refused (.notTriggered T))
  else
    match inTime a.limit (read.reply (world.wakeups.latest? a.user)) with
    | .error fault => .error (.store fault)
    | .ok latest =>
      match refusal? T latest world.fired with
      | some refusal => .error (.refused refusal)
      | none =>
        match inTime a.limit (World.upsert world.wakeups a.user ⟨T, some ack⟩ write).1 with
        | .error fault => .error (.store fault)
        | .ok _ => .ok ⟨T, some ack⟩

/-- A wake-up is found and acknowledged unless there is a reason against it. -/
theorem target_acknowledge (latest : Option Wakeup) (fired : Option Instant) :
    (target T latest fired >>= (·.acknowledge ack)) =
      match refusal? T latest fired with
      | some refusal => .error refusal
      | none => .ok ⟨T, some ack⟩ := by
  obtain ⟨w, hw, hlater, htarget⟩ | ⟨w, hw, rfl, htarget⟩ | ⟨hearlier, htarget⟩ :=
    target_eq_iff.mp (rfl : target T latest fired = _)
  · obtain rfl : latest = some w := hw
    have hrefusal : refusal? T (some w) fired = some (.superseded T w.alarmInstant) := by
      unfold refusal?
      rw [Option.filter_some]
      simp [hlater]
    rw [htarget, hrefusal]
    rfl
  · obtain rfl : latest = some w := hw
    have hrefusal : refusal? w.alarmInstant (some w) fired =
        if w.isAcknowledged then some (.alreadyAcknowledged w.alarmInstant) else none := by
      unfold refusal?
      rw [Option.filter_some]
      simp [Instant.lt_irrefl]
    rw [htarget, hrefusal]
    obtain ⟨i, acknowledgment⟩ := w
    cases acknowledgment <;> rfl
  · have hne : ∀ w ∈ latest, w.alarmInstant ≠ T :=
      fun w hw heq => Instant.lt_irrefl T (heq ▸ hearlier w hw)
    have hnone : latest.filter (T < ·.alarmInstant) = none := by
      rw [Option.filter_eq_none_iff]
      intro w hw
      simpa using fun hlt => Instant.lt_irrefl T (Instant.lt_trans hlt (hearlier w hw))
    have hrefusal : refusal? T latest fired =
        if fired = some T then none else some (.notTriggered T) := by
      unfold refusal?
      rw [hnone]
      dsimp only
      rw [if_neg fun ⟨w, hw, heq, _⟩ => hne w hw heq]
      by_cases hfired : fired = some T
      · rw [if_pos hfired, if_neg fun h => h.2 hfired]
      · rw [if_neg hfired, if_pos ⟨hne, hfired⟩]
    rw [htarget, hrefusal]
    by_cases hfired : fired = some T
    · rw [if_pos hfired, if_pos hfired]
      rfl
    · rw [if_neg hfired, if_neg hfired]
      rfl

/-! ## The run of a call -/

/-- A call up to its upsert. -/
theorem acknowledge_runWith (a : Acknowledger) (world : World) (read look : Fate)
    (fates : List Fate) : (a.acknowledge T ack).runWith (read :: look :: fates) ⟨world, []⟩ =
      if ack.instant < T then (.error (.refused (.notTriggered T)), ⟨world, []⟩)
      else
        match inTime a.limit (read.reply (world.wakeups.latest? a.user)) with
        | .error fault => (.error (.store fault), ⟨world, []⟩)
        | .ok latest =>
          match refusal? T latest world.fired with
          | some refusal => (.error (.refused refusal), ⟨world, []⟩)
          | none => (a.conclude ⟨T, some ack⟩).runWith fates ⟨world, []⟩ := by
  have hread : ∀ f : Except StoreFault (Option Wakeup) → Activity (Except SessionFault Wakeup),
      (a.latest >>= f).runWith (read :: look :: fates) ⟨world, []⟩ =
        (f (inTime a.limit (read.reply (world.wakeups.latest? a.user)))).runWith (look :: fates)
          ⟨world, []⟩ := fun _ => rfl
  have hlook : Watch.meet ⟨world, []⟩ look .lastFired = (world.fired, ⟨world, []⟩) := rfl
  unfold acknowledge
  split
  · rfl
  rw [hread]
  cases inTime a.limit (read.reply (world.wakeups.latest? a.user)) with
  | error fault => rfl
  | ok latest =>
    dsimp only
    rw [runWith_request_bind, List.headD_cons, hlook, target_acknowledge]
    cases refusal? T latest world.fired <;> rfl

/-- There is no reason against an occurrence exactly if its acknowledgment is awaited. -/
theorem refusal?_eq_none_iff {world : World} {user : String} :
    refusal? T (world.wakeups.latest? user) world.fired = none ↔ world.Awaits user T := by
  have hok : (target T (world.wakeups.latest? user) world.fired >>= (·.acknowledge ⟨T, none⟩)) =
      .ok ⟨T, some ⟨T, none⟩⟩ ↔ world.Awaits user T :=
    target_acknowledge_eq_ok_iff.trans ((and_iff_left rfl).trans World.awaits_iff.symm)
  rw [← hok, target_acknowledge]
  cases refusal? T (world.wakeups.latest? user) world.fired <;> simp

/-- The end of a call whose occurrence is awaited : it fails to save the wake-up and leaves
everything as it was, or it saves it and tells the player to stop and to play the silent loop. -/
theorem conclude_runWith (a : Acknowledger) (ack : Acknowledgment) {world : World}
    (h : world.Awaits a.user T) {write : Fate} (hwrite : write.IsWhole) (stop silent : Fate) :
    (∃ fault, inTime a.limit (World.upsert world.wakeups a.user ⟨T, some ack⟩ write).1 =
        .error fault ∧
      (a.conclude ⟨T, some ack⟩).runWith [write, stop, silent] ⟨world, []⟩ =
        (.error (.store fault), ⟨world, []⟩)) ∨
      (World.upsert world.wakeups a.user ⟨T, some ack⟩ write).1 = some (.ok ⟨T, some ack⟩) ∧
        ∃ o, (a.conclude ⟨T, some ack⟩).runWith [write, stop, silent] ⟨world, []⟩ =
            (.ok ⟨T, some ack⟩, o) ∧
          o.world.wakeups = (world.wakeups.merge a.user ⟨T, some ack⟩).flush ∧
          o.world.player =
            (World.sound (World.sound world.player .stop stop).2 .playSilent silent).2 := by
  have hsave : Watch.meet ⟨world, []⟩ write (.upsert a.user ⟨T, some ack⟩) =
      ((World.upsert world.wakeups a.user ⟨T, some ack⟩ write).1,
        ⟨{ world with
          wakeups := (World.upsert world.wakeups a.user ⟨T, some ack⟩ write).2 }, []⟩) := rfl
  unfold conclude
  rw [runWith_request_bind, List.headD_cons, hsave]
  dsimp only
  obtain hsaved | ⟨⟨fault, hfault⟩, hsame⟩ :=
    World.upsert_of_isWhole world.wakeups a.user ⟨T, some ack⟩ a.limit hwrite
  · rw [joined_of_awaits h] at hsaved
    rw [hsaved]
    exact .inr ⟨rfl, _, rfl, rfl, rfl⟩
  · rw [hfault, hsame]
    exact .inl ⟨fault, rfl, rfl⟩

/-! ## The theorem -/

/-- A call that is alone, and whose upsert succeeds or has no effect, comes to its verdict. If it
returns a wake-up, that is the occurrence with the acknowledgment of the call, which is not dated
before it; the store has taken it up and has changed no other record; and the silent loop plays,
unless the player could not be reached for it. If it fails, everything is as it was. -/
theorem acknowledges_or_leaves (a : Acknowledger) (world : World) (T : Instant)
    (ack : Acknowledgment) (read look write stop silent : Fate) (hwrite : write.IsWhole) :
    let call := (a.acknowledge T ack).runWith [read, look, write, stop, silent] ⟨world, []⟩
    call.1 = a.verdict world T ack read write ∧
      (∀ w, call.1 = .ok w → w = ⟨T, some ack⟩ ∧ T ≤ ack.instant ∧
        world.TakesUp call.2.world a.user w ∧
        (silent.Reaches → call.2.world.player.playing = some .silent)) ∧
      (∀ fault, call.1 = .error fault → call.2 = ⟨world, []⟩) := by
  dsimp only
  rw [acknowledge_runWith]
  unfold verdict
  by_cases hearly : ack.instant < T
  · rw [if_pos hearly, if_pos hearly]
    exact ⟨rfl, by rintro w ⟨⟩, fun _ _ => rfl⟩
  rw [if_neg hearly, if_neg hearly]
  cases hread : inTime a.limit (read.reply (world.wakeups.latest? a.user)) with
  | error fault => exact ⟨rfl, by rintro w ⟨⟩, fun _ _ => rfl⟩
  | ok latest =>
    obtain rfl : latest = world.wakeups.latest? a.user := by
      cases read <;> cases hread <;> rfl
    dsimp only
    cases hrefusal : refusal? T (world.wakeups.latest? a.user) world.fired with
    | some refusal => exact ⟨rfl, by rintro w ⟨⟩, fun _ _ => rfl⟩
    | none =>
      dsimp only
      -- No record of the occurrence is acknowledged, so what is stored is the call's own wake-up.
      have hawaits := refusal?_eq_none_iff.mp hrefusal
      obtain ⟨fault, hfault, hrun⟩ | ⟨hsaved, o, hrun, hstore, hplayer⟩ :=
        a.conclude_runWith ack hawaits hwrite stop silent
      · rw [hrun, hfault]
        exact ⟨rfl, by rintro w ⟨⟩, fun _ _ => rfl⟩
      · rw [hrun, hsaved]
        refine ⟨rfl, ?_, by rintro fault ⟨⟩⟩
        rintro w ⟨⟩
        refine ⟨rfl, hearly, World.takesUp_of_merge (joined_of_awaits hawaits) hstore, ?_⟩
        intro hreached
        rw [hplayer]
        cases silent with
        | down reason => exact absurd rfl (hreached reason)
        | _ => rfl

/-- Midnight at 05:30 east rings, and its wake-up cannot be saved. A call half a minute later
acknowledges it all the same, and goes back to the silent loop although the player cannot be
stopped. -/
theorem acknowledges_or_leaves_midnight :
    let midnight : Instant := ⟨1781116200, 0, by decide, by decide, by decide, by decide⟩
    let later : Instant := ⟨1781116230, 0, by decide, by decide, by decide, by decide⟩
    let rings : World := (((Session.new "ada" (.fixed 19800) .defaults).tick midnight).runWith
      [.answered, .answered, .unwritten .isDirectory]
      ⟨.new ⟨"config", ⟨.defaults, [⟨"ada", ⟨0, 0⟩⟩]⟩, none⟩ ⟨"wakeups", .empty, none⟩, []⟩).2.world
    let call := ((Acknowledger.new "ada" .defaults).acknowledge midnight
      ⟨later, some "photo"⟩).runWith [.answered, .answered, .answered, .down "busy", .answered]
      ⟨rings, []⟩
    Fate.IsWhole .answered ∧ rings.wakeups.records.find? "ada" midnight = none ∧
      rings.player.isRinging = true ∧ call.1 = .ok ⟨midnight, some ⟨later, some "photo"⟩⟩ ∧
      rings.TakesUp call.2.world "ada" ⟨midnight, some ⟨later, some "photo"⟩⟩ ∧
      call.2.world.player.playing = some .silent := by
  dsimp only
  have hwhole : Fate.IsWhole .answered := by decide
  obtain ⟨-, hreturned, -⟩ := acknowledges_or_leaves (.new "ada" .defaults)
    (((Session.new "ada" (.fixed 19800) .defaults).tick
      ⟨1781116200, 0, by decide, by decide, by decide, by decide⟩).runWith
      [.answered, .answered, .unwritten .isDirectory]
      ⟨.new ⟨"config", ⟨.defaults, [⟨"ada", ⟨0, 0⟩⟩]⟩, none⟩ ⟨"wakeups", .empty, none⟩, []⟩).2.world
    ⟨1781116200, 0, by decide, by decide, by decide, by decide⟩
    ⟨⟨1781116230, 0, by decide, by decide, by decide, by decide⟩, some "photo"⟩
    .answered .answered .answered (.down "busy") .answered hwhole
  obtain ⟨-, -, hstore, hsilent⟩ := hreturned
    ⟨⟨1781116200, 0, by decide, by decide, by decide, by decide⟩,
      some ⟨⟨1781116230, 0, by decide, by decide, by decide, by decide⟩, some "photo"⟩⟩
    (by decide +kernel)
  exact ⟨hwhole, by decide +kernel, by decide +kernel, by decide +kernel, hstore,
    hsilent (by rintro _ ⟨⟩)⟩

end Acknowledger

end Reveille
