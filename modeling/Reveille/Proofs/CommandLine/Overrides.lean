import Reveille.CommandLine.Arguments
import Reveille.Proofs.Settings

/-!
# Overridden settings

Seconds and minutes of the arguments are made into milliseconds that stop at the greatest word
(`toNat_saturatingMul`). What the arguments do not ask for stays as it is (`Arguments.Overrides`).
Settings that keep the rules are overridden exactly if no poll interval of 0 is asked for and the
lookback covers the tolerance. They keep the rules afterwards, and their spans are as long as was
asked for or loaded, or the longest (`Arguments.overrides_within_limits`).
-/

namespace Reveille

/-- A product of words is the product of the numbers, or the greatest word. -/
theorem toNat_saturatingMul (n : UInt64) (k : Nat) :
    (saturatingMul n k).toNat = min (k * n.toNat) (2 ^ 64 - 1) := by
  unfold saturatingMul
  rw [UInt64.toNat_ofNat', Nat.mul_comm]
  omega

namespace Arguments

variable {a : Arguments} {s s' : Settings}

/-! ## What is asked for -/

/-- The milliseconds of as many units as are asked for, or those that are loaded. -/
def millis (asked : Option UInt64) (unit : Nat) (loaded : UInt64) : Nat :=
  match asked with
  | some n => unit * n.toNat
  | none => loaded.toNat

theorem toNat_getD_saturatingMul (asked : Option UInt64) (unit : Nat) (loaded : UInt64) :
    ((asked.map (saturatingMul · unit)).getD loaded).toNat =
      min (millis asked unit loaded) (2 ^ 64 - 1) := by
  cases asked with
  | none =>
    have hword := loaded.toNat_lt
    show loaded.toNat = min loaded.toNat (2 ^ 64 - 1)
    omega
  | some n => exact toNat_saturatingMul n unit

/-- The settings `s'` are `s` but for what the arguments ask for, up to the greatest word. -/
structure Overrides (a : Arguments) (s s' : Settings) : Prop where
  pollMs : s'.pollMs = a.pollMs.getD s.pollMs
  toleranceMs : s'.toleranceMs.toNat =
    min (millis a.toleranceSecs 1000 s.toleranceMs) (2 ^ 64 - 1)
  toleranceMs_of_none : a.toleranceSecs = none → s'.toleranceMs = s.toleranceMs
  ackWindowMs : s'.ackWindowMs.toNat =
    min (millis a.ackWindowMins 60000 s.ackWindowMs) (2 ^ 64 - 1)
  ackWindowMs_of_none : a.ackWindowMins = none → s'.ackWindowMs = s.ackWindowMs
  lookbackMs : s'.lookbackMs = s.lookbackMs
  writeTimeoutMs : s'.writeTimeoutMs = s.writeTimeoutMs
  volume : s'.volume = s.volume

theorem overrides_replaced (a : Arguments) (s : Settings) : a.Overrides s (a.replaced s) where
  pollMs := rfl
  toleranceMs := toNat_getD_saturatingMul a.toleranceSecs 1000 s.toleranceMs
  toleranceMs_of_none h := by simp [replaced, h]
  ackWindowMs := toNat_getD_saturatingMul a.ackWindowMins 60000 s.ackWindowMs
  ackWindowMs_of_none h := by simp [replaced, h]
  lookbackMs := rfl
  writeTimeoutMs := rfl
  volume := rfl

theorem Overrides.windowFits_iff (h : a.Overrides s s') : s'.WindowFits ↔
    min (millis a.toleranceSecs 1000 s.toleranceMs) (2 ^ 64 - 1) ≤ s.lookbackMs.toNat := by
  rw [← h.toleranceMs, ← h.lookbackMs]
  exact UInt64.le_iff_toNat_le

/-! ## Overriding -/

theorem override_eq_ok_iff :
    a.override s = .ok s' ↔ a.pollMs ≠ some 0 ∧ s'.WindowFits ∧ s' = a.replaced s := by
  unfold override
  dsimp only
  split
  · next hpoll => exact ⟨nofun, fun h => absurd hpoll h.1⟩
  split
  · next hpoll hfits =>
    rw [Except.ok.injEq, eq_comm]
    exact ⟨fun h => ⟨hpoll, h ▸ hfits, h⟩, fun h => h.2.2⟩
  · next hfits => exact ⟨nofun, fun h => absurd (h.2.2 ▸ h.2.1) hfits⟩

theorem override_eq_error_iff : (∃ fault, a.override s = .error fault) ↔ a.pollMs = some 0 ∨
    s.lookbackMs.toNat < min (millis a.toleranceSecs 1000 s.toleranceMs) (2 ^ 64 - 1) := by
  rw [← Nat.not_le, ← (a.overrides_replaced s).windowFits_iff]
  constructor
  · rintro ⟨fault, h⟩
    by_contra hneither
    obtain ⟨hpoll, hfits⟩ := not_or.mp hneither
    have hok : a.override s = .ok (a.replaced s) :=
      override_eq_ok_iff.mpr ⟨hpoll, not_not.mp hfits, rfl⟩
    cases h.symm.trans hok
  · intro h
    cases hoverride : a.override s with
    | error fault => exact ⟨fault, rfl⟩
    | ok s' =>
      obtain ⟨hpoll, hfits, rfl⟩ := override_eq_ok_iff.mp hoverride
      rcases h with h | h
      · exact absurd h hpoll
      · exact absurd hfits h

/-- Arguments cannot break the rules that settings keep. They are turned down exactly if they ask
for a poll interval of 0, or if the tolerance, as asked for up to the greatest word or as loaded, is
longer than the lookback. Otherwise the settings are overridden by what is asked for and keep the
rules. Each span is the length of time that was asked for or loaded, up to the longest span, and the
lookback covers the tolerance. -/
theorem overrides_within_limits (hs : s.IsValid) (a : Arguments) :
    ((∃ fault, a.override s = .error fault) ↔ a.pollMs = some 0 ∨
      s.lookbackMs.toNat < min (millis a.toleranceSecs 1000 s.toleranceMs) (2 ^ 64 - 1)) ∧
    ∀ s', a.override s = .ok s' → s'.IsValid ∧ a.Overrides s s' ∧
      s'.tolerance =
        min (.ofMillis (millis a.toleranceSecs 1000 s.toleranceMs)) Settings.longestSpan ∧
      s'.ackWindow =
        min (.ofMillis (millis a.ackWindowMins 60000 s.ackWindowMs)) Settings.longestSpan ∧
      s'.lookback = min (.ofMillis s.lookbackMs.toNat) Settings.longestSpan ∧
      s'.tolerance ≤ s'.lookback := by
  refine ⟨override_eq_error_iff, fun s' h => ?_⟩
  obtain ⟨hpoll, hfits, rfl⟩ := override_eq_ok_iff.mp h
  have hreplaced := a.overrides_replaced s
  obtain ⟨hloaded, hvolume, -⟩ := Settings.isValid_iff.mp hs
  have hpositive : (a.replaced s).pollMs ≠ 0 := by
    rw [hreplaced.pollMs]
    cases hasked : a.pollMs with
    | none => exact hloaded
    | some ms => exact fun hzero => hpoll (hasked.trans (congrArg some hzero))
  exact ⟨Settings.isValid_iff.mpr ⟨hpositive, hvolume, hfits⟩, hreplaced,
    Settings.ofMillis_clamp hreplaced.toleranceMs, Settings.ofMillis_clamp hreplaced.ackWindowMs,
    Settings.lookback_eq _, hfits.tolerance_le⟩

/-- The greatest number of seconds is accepted as a tolerance if the lookback is the greatest word,
and then both are the longest span; with a lookback one millisecond shorter it is turned down. -/
theorem overrides_within_limits_greatest :
    let greatest : UInt64 := 18446744073709551615
    let widest : Settings := { Settings.defaults with lookbackMs := greatest }
    let narrower : Settings := { Settings.defaults with lookbackMs := greatest - 1 }
    let a : Arguments := ⟨"wakey.json", "uid-a", "wakeups.json", none, some greatest, some greatest,
      none, none, false, false, false⟩
    widest.IsValid ∧ narrower.IsValid ∧ (∃ fault, a.override narrower = .error fault) ∧
      ∃ s', a.override widest = .ok s' ∧ s'.IsValid ∧ s'.toleranceMs = greatest ∧
        s'.tolerance = s'.lookback ∧ s'.ackWindow = Settings.longestSpan := by
  intro greatest widest narrower a
  have hvolume : Settings.fullVolume.InUnitInterval := by decide
  have hwidest : widest.IsValid := Settings.isValid_iff.mpr ⟨by decide, hvolume, by decide⟩
  have hnarrower : narrower.IsValid := Settings.isValid_iff.mpr ⟨by decide, hvolume, by decide⟩
  have hrefused := (overrides_within_limits hnarrower a).1.mpr (.inr (by decide))
  have hok : a.override widest = .ok (a.replaced widest) :=
    override_eq_ok_iff.mpr ⟨by decide, by decide, rfl⟩
  obtain ⟨hvalid, -, htolerance, hwindow, hlookback, -⟩ :=
    (overrides_within_limits hwidest a).2 _ hok
  refine ⟨hwidest, hnarrower, hrefused, _, hok, hvalid, by decide, ?_, ?_⟩
  · rw [htolerance, hlookback]
    decide
  · rw [hwindow]
    decide

end Arguments

end Reveille
