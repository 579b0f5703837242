import Reveille.Instant

/-!
# Instants on the Unix scale

Outside leap seconds an instant is its number of nanoseconds on the Unix scale
(`Instant.unixNanos`) : the span between two of them is a difference on the scale (`since_eq`),
and a shift is an addition on it (`shift?_eq_some_iff`). A full second is told apart from another
by its milliseconds alone (`eq_of_unixMillis_eq`).
-/

namespace Reveille

/-! ## Spans -/

namespace Span

theorem abs_le_iff {span limit : Span} : span.abs ≤ limit ↔ -limit ≤ span ∧ span ≤ limit := by
  unfold abs Span at *
  split <;> omega

end Span

/-! ## Instants -/

namespace Instant

theorem ext_parts {i j : Instant} (hs : i.second = j.second) (hn : i.nano = j.nano) : i = j := by
  cases i
  cases j
  simp_all

theorem of?_eq_some_iff {second : Int} {nano : Nat} {i : Instant} :
    of? second nano = some i ↔ i.second = second ∧ i.nano = nano := by
  unfold of?
  constructor
  · intro h
    split at h
    · cases h
      exact ⟨rfl, rfl⟩
    · cases h
  · rintro ⟨rfl, rfl⟩
    rw [dif_pos ⟨i.first_le, i.le_last, i.nano_lt, i.leap_last⟩]

/-- A full second of the supported range is an instant. -/
theorem of?_zero_isSome {second : Int} (h : firstSecond ≤ second) (h' : second ≤ lastSecond) :
    (of? second 0).isSome = true := by
  unfold of?
  rw [dif_pos ⟨h, h', by decide, .inl (by decide)⟩]
  rfl

theorem not_isLeap_of_nano_eq_zero {i : Instant} (h : i.nano = 0) : ¬ i.IsLeap := by
  unfold IsLeap secondNanos
  omega

/-- The milliseconds lose nothing of a full second. -/
theorem eq_of_unixMillis_eq {i j : Instant} (hi : i.nano = 0) (hj : j.nano = 0)
    (h : i.unixMillis = j.unixMillis) : i = j := by
  unfold unixMillis at h
  exact ext_parts (by omega) (by omega)

theorem since_eq {i j : Instant} (hi : ¬ i.IsLeap) (hj : ¬ j.IsLeap) :
    i.since j = i.unixNanos - j.unixNanos := by
  unfold since
  rw [if_neg fun h => hj h.2, if_neg fun h => hi h.2]

/-- An instant outside leap seconds is found by its place on the scale. -/
theorem ofUnixNanos?_eq_some_iff {n : Int} {i : Instant} :
    ofUnixNanos? n = some i ↔ ¬ i.IsLeap ∧ i.unixNanos = n := by
  unfold ofUnixNanos?
  rw [of?_eq_some_iff]
  unfold IsLeap unixNanos secondNanos
  omega

theorem shift?_eq_some_iff {i j : Instant} {span : Span} (hi : ¬ i.IsLeap) :
    i.shift? span = some j ↔ ¬ j.IsLeap ∧ j.unixNanos = i.unixNanos + span := by
  unfold shift?
  rw [if_neg hi, ofUnixNanos?_eq_some_iff]

/-- A shift backwards leads to no later instant, in leap seconds too. -/
theorem le_of_shift? {i j : Instant} {span : Span} (h : i.shift? span = some j)
    (hback : span ≤ 0) : j ≤ i := by
  show ¬ (i.second < j.second ∨ i.second = j.second ∧ i.nano < j.nano)
  have hnano := i.nano_lt
  unfold shift? at h
  unfold Span at *
  split at h
  · next hleap =>
    unfold IsLeap secondNanos at hleap
    split at h
    · obtain ⟨hs, hn⟩ := of?_eq_some_iff.mp h
      omega
    · next hfar =>
      -- Out of the leap second it is at least a second back on the Unix scale.
      rw [if_pos (by unfold secondNanos at *; omega)] at h
      obtain ⟨hj, hunix⟩ := ofUnixNanos?_eq_some_iff.mp h
      unfold IsLeap unixNanos secondNanos at *
      omega
  · next hleap =>
    obtain ⟨hj, hunix⟩ := ofUnixNanos?_eq_some_iff.mp h
    unfold IsLeap unixNanos secondNanos at *
    omega

/-- Outside leap seconds the order of instants is the one on the scale. -/
theorem le_iff_unixNanos_le {i j : Instant} (hi : ¬ i.IsLeap) (hj : ¬ j.IsLeap) :
    i ≤ j ↔ i.unixNanos ≤ j.unixNanos := by
  show ¬ (j.second < i.second ∨ j.second = i.second ∧ j.nano < i.nano) ↔ _
  unfold IsLeap unixNanos secondNanos at *
  omega

/-- The distance of two instants is a distance on the scale. -/
theorem abs_since_le_iff {i j : Instant} {limit : Span} (hi : ¬ i.IsLeap) (hj : ¬ j.IsLeap) :
    (i.since j).abs ≤ limit ↔
      j.unixNanos - limit ≤ i.unixNanos ∧ i.unixNanos ≤ j.unixNanos + limit := by
  rw [Span.abs_le_iff, since_eq hi hj]
  unfold Span at *
  omega

theorem since_lt_iff {i j : Instant} {limit : Span} (hi : ¬ i.IsLeap) (hj : ¬ j.IsLeap) :
    i.since j < limit ↔ i.unixNanos < j.unixNanos + limit := by
  rw [since_eq hi hj]
  unfold Span at *
  omega

end Instant

end Reveille
