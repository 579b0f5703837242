import Reveille.Settings
import Reveille.Proofs.Number.Rounding

/-!
# Rules for settings

The rules that a configuration's settings keep, said on the numbers themselves
(`Settings.IsValid`). A length of time that is held in a word of milliseconds, stopped at the
greatest word, is made into a span that stops at the longest : both limits together leave the length
of time or the longest span (`Settings.ofMillis_clamp`). A lookback that covers the tolerance in
milliseconds covers it as a span (`Settings.WindowFits.tolerance_le`).
-/

namespace Reveille

namespace Settings

variable {s : Settings}

/-- The settings keep the rules of a configuration. -/
structure IsValid (s : Settings) : Prop where
  pollMs_pos : 0 < s.pollMs.toNat
  volume : ∃ q ∈ s.volume.value?, 0 ≤ q ∧ q ≤ 1
  toleranceMs_le : s.toleranceMs.toNat ≤ s.lookbackMs.toNat

/-- The longest span that milliseconds are made into. -/
def longestSpan : Span := .ofMillis (2 ^ 63 - 1)

/-- Milliseconds that stop at the greatest word are made into the span of all of them, or the
longest span. -/
theorem ofMillis_clamp {ms : UInt64} {n : Nat} (h : ms.toNat = min n (2 ^ 64 - 1)) :
    Span.ofMillis (clamp ms) = min (.ofMillis n) longestSpan := by
  unfold longestSpan clamp spanLimit Span.ofMillis Span
  omega

theorem lookback_eq (s : Settings) :
    s.lookback = min (.ofMillis s.lookbackMs.toNat) longestSpan :=
  ofMillis_clamp (by have := s.lookbackMs.toNat_lt; omega)

theorem pollMs_pos_iff : 0 < s.pollMs.toNat ↔ s.pollMs ≠ 0 := by
  rw [Nat.pos_iff_ne_zero, ne_eq, ne_eq, ← UInt64.toNat_inj]
  rfl

/-- The rules are what is checked of settings. -/
theorem isValid_iff : s.IsValid ↔ s.pollMs ≠ 0 ∧ s.volume.InUnitInterval ∧ s.WindowFits := by
  rw [← pollMs_pos_iff, Binary.inUnitInterval_iff]
  exact ⟨fun h => ⟨h.pollMs_pos, h.volume, h.toleranceMs_le⟩, fun h => ⟨h.1, h.2.1, h.2.2⟩⟩

/-- A lookback that covers the tolerance in milliseconds covers it as a span. -/
theorem WindowFits.tolerance_le (h : s.WindowFits) : s.tolerance ≤ s.lookback := by
  have hms : s.toleranceMs.toNat ≤ s.lookbackMs.toNat := h
  unfold tolerance lookback clamp Span.ofMillis Span
  omega

end Settings

end Reveille
