import ControlPlane.Time.Instant

/-!
# Spans of time

Differences of instants in seconds and nanoseconds: one with a sign (`Span`), which has its limits,
and one without (`Duration`), whose seconds have 64 bits. `Instant.elapsed?` is the span between two
instants, and `Span.toDuration?` leaves out the sign where there is none.
-/

namespace ControlPlane

/-! ## Spans -/

/-- The nanoseconds that a span has at most on either side of zero. -/
def Span.limit : Nat := 9223372036854775807 * 1000000

/-- A time of `nanos` nanoseconds after the given number of seconds, which may be negative. -/
structure Span where
  seconds : Int
  nanos : Nat
  nanos_lt : nanos < Instant.second
  natAbs_le : (seconds * Instant.second + nanos).natAbs ≤ Span.limit

/-- The span of a number of seconds and nanoseconds, unless it is beyond the limits. -/
def Span.of? (seconds : Int) (nanos : Nat) : Option Span :=
  if h : nanos < Instant.second ∧ (seconds * Instant.second + nanos).natAbs ≤ limit then
    some ⟨seconds, nanos, h.1, h.2⟩
  else none

/-- The span from `b` to `a`, negative if `a` is the earlier one. Its nanoseconds count from the
second below. -/
def Instant.elapsed? (a b : Instant) : Option Span :=
  let nanos : Int := (a.nanos : Int) - b.nanos
  Span.of? (a.seconds - b.seconds + leapBetween a b + nanos / second) (nanos % second).toNat

/-! ## Durations -/

/-- A time of `nanos` nanoseconds after the given number of seconds. -/
structure Duration where
  seconds : UInt64
  nanos : UInt32
  nanos_lt : nanos.toNat < Instant.second
  deriving DecidableEq

namespace Duration

/-- No time at all. -/
def zero : Duration := ⟨0, 0, by decide⟩

/-- Durations are compared by their seconds and then by their nanoseconds. -/
def shorter (a b : Duration) : Bool :=
  a.seconds < b.seconds || (a.seconds == b.seconds && a.nanos < b.nanos)

end Duration

/-- A span that is not negative as a duration. -/
def Span.toDuration? (s : Span) : Option Duration :=
  if s.seconds < 0 then none
  else some ⟨.ofNat s.seconds.toNat, .ofNat s.nanos, by
    rw [UInt32.toNat_ofNat']
    exact Nat.lt_of_le_of_lt (Nat.mod_le _ _) s.nanos_lt⟩

end ControlPlane
