import ControlPlane.Proofs.Time.Instant
import ControlPlane.Time.Span

/-!
# Spans of time: exact differences

Counted in nanoseconds, durations are in their order (`Duration.shorter_iff`), a span becomes the
duration of as many nanoseconds or, if it is negative, none (`Span.ticks_toDuration?`), and two
instants in the years of the calendar are a span apart, which is their difference
(`Instant.elapsed?_spec`).
-/

namespace ControlPlane

/-! ## Durations -/

namespace Duration

/-- The number of nanoseconds in a duration. -/
def ticks (d : Duration) : Nat :=
  d.seconds.toNat * Instant.second + d.nanos.toNat

@[simp] theorem ticks_zero : zero.ticks = 0 := rfl

/-- The order of durations is that of their nanoseconds. -/
theorem shorter_iff {a b : Duration} : a.shorter b = true ↔ a.ticks < b.ticks := by
  have ha := a.nanos_lt
  have hb := b.nanos_lt
  unfold shorter ticks
  rw [Bool.or_eq_true, Bool.and_eq_true, decide_eq_true_eq, decide_eq_true_eq, beq_iff_eq,
    UInt64.lt_iff_toNat_lt, UInt32.lt_iff_toNat_lt, ← UInt64.toNat_inj]
  unfold Instant.second at *
  omega

end Duration

/-! ## Spans -/

namespace Span

/-- The number of nanoseconds in a span. -/
def ticks (s : Span) : Int :=
  s.seconds * Instant.second + s.nanos

/-- The seconds of a span have room in a duration. -/
theorem toNat_seconds_lt (s : Span) : s.seconds.toNat < 2 ^ 64 := by
  have h := s.natAbs_le
  unfold limit Instant.second at h
  omega

/-- A span that is not negative becomes a duration of as many nanoseconds. -/
theorem ticks_toDuration? (s : Span) : (s.toDuration?.getD .zero).ticks = s.ticks.toNat := by
  have hn := s.nanos_lt
  unfold toDuration?
  by_cases hs : s.seconds < 0
  · have hneg : s.ticks < 0 := by
      unfold ticks Instant.second at *
      omega
    rw [if_pos hs, Option.getD_none, Duration.ticks_zero, Int.toNat_of_nonpos (Int.le_of_lt hneg)]
  · have hsmall : s.nanos < 2 ^ 32 := by
      unfold Instant.second at hn
      omega
    rw [if_neg hs, Option.getD_some]
    unfold Duration.ticks ticks
    dsimp only
    rw [UInt64.toNat_ofNat_of_lt' s.toNat_seconds_lt, UInt32.toNat_ofNat_of_lt' hsmall]
    unfold Instant.second
    omega

theorem of?_eq_some {seconds : Int} {nanos : Nat} (hn : nanos < Instant.second)
    (hl : (seconds * Instant.second + nanos).natAbs ≤ limit) :
    of? seconds nanos = some ⟨seconds, nanos, hn, hl⟩ :=
  dif_pos ⟨hn, hl⟩

end Span

/-! ## Instants -/

namespace Instant

variable {a b t : Instant}

theorem firstSecond_eq : firstSecond = -8272434009600 := by decide

theorem beyondSecond_eq : beyondSecond = 8272434096000 := by decide

/-- Between two times of day there is at most one leap second. -/
theorem leapBetween_bounds (a b : Instant) : -1 ≤ leapBetween a b ∧ leapBetween a b ≤ 1 := by
  unfold leapBetween
  dsimp only
  split_ifs <;> omega

/-- The difference of two instants in the years of the calendar is far below the limits of spans. -/
theorem natAbs_since_le (ha : a.inRange = true) (hb : b.inRange = true) :
    (a.since b).natAbs ≤ Span.limit := by
  obtain ⟨hal, hau, han⟩ := inRange_iff.1 ha
  obtain ⟨hbl, hbu, hbn⟩ := inRange_iff.1 hb
  rw [firstSecond_eq] at hal hbl
  rw [beyondSecond_eq] at hau hbu
  obtain ⟨hl, hu⟩ := leapBetween_bounds a b
  unfold since Span.limit second at *
  omega

/-- Two instants in the years of the calendar are a span apart, and it is exactly their
difference. -/
theorem elapsed?_spec (ha : a.inRange = true) (hb : b.inRange = true) :
    ∃ s, a.elapsed? b = some s ∧ s.ticks = a.since b := by
  have hlimit := natAbs_since_le ha hb
  have hpos : (0 : Int) < second := by decide
  have hnanos : ((((a.nanos : Int) - b.nanos) % second).toNat : Int) =
      ((a.nanos : Int) - b.nanos) % second :=
    Int.toNat_of_nonneg (Int.emod_nonneg _ hpos.ne')
  have hlt := Int.emod_lt_of_pos ((a.nanos : Int) - b.nanos) hpos
  -- the nanoseconds carry into the seconds without loss
  have hticks : (a.seconds - b.seconds + leapBetween a b + ((a.nanos : Int) - b.nanos) / second) *
      second + ((((a.nanos : Int) - b.nanos) % second).toNat : Int) = a.since b := by
    rw [hnanos, Int.add_mul, Int.add_assoc, Int.mul_comm (_ / _), Int.mul_ediv_add_emod]
    rfl
  refine ⟨_, Span.of?_eq_some (by omega) (by rw [hticks]; exact hlimit), hticks⟩

end Instant

end ControlPlane
