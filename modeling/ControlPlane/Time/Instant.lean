import ControlPlane.Time.Calendar

/-!
# Instants

Points of universal time to the nanosecond, in order, with their differences and their movement.
A leap second is the second that follows the last ordinary one of a minute and is counted as its
prolongation: its instants have a fraction of at least one second.
-/

namespace ControlPlane

/-- The instant `nanos` nanoseconds after second number `seconds` since the start of the year 0. -/
structure Instant where
  seconds : Int
  nanos : Nat
  deriving DecidableEq, Repr

namespace Instant

/-- A second in nanoseconds. -/
def second : Nat := 1000000000

/-- A day in seconds. -/
def daySeconds : Int := 86400

/-- The first second that an instant can have. -/
def firstSecond : Int := Date.daysBeforeYear Date.firstYear * daySeconds

/-- The second after the last one that an instant can have. -/
def beyondSecond : Int := Date.daysBeforeYear (Date.lastYear + 1) * daySeconds

/-- Whether the instant lies in a leap second. -/
def isLeap (t : Instant) : Bool :=
  second ≤ t.nanos

/-- Whether the instant lies within the years of the calendar. -/
def inRange (t : Instant) : Bool :=
  firstSecond ≤ t.seconds && t.seconds < beyondSecond && t.nanos < 2 * second

/-! ## Order and difference -/

/-- Instants are ordered by their second and then by their fraction. -/
def before (a b : Instant) : Bool :=
  a.seconds < b.seconds || (a.seconds == b.seconds && a.nanos < b.nanos)

/-- The whole seconds that a leap second adds between two times of day. -/
def leapBetween (a b : Instant) : Int :=
  let x := a.seconds % daySeconds
  let y := b.seconds % daySeconds
  if y < x then (if b.isLeap then 1 else 0)
  else if x < y then (if a.isLeap then -1 else 0)
  else 0

/-- The nanoseconds from `b` to `a`, negative if `a` is the earlier one. -/
def since (a b : Instant) : Int :=
  (a.seconds - b.seconds + leapBetween a b) * second + ((a.nanos : Int) - b.nanos)

/-! ## Movement -/

/-- Brings a second and a fraction between minus one and two seconds into standard form. -/
def normal (seconds nanos : Int) : Instant :=
  ⟨seconds + nanos / second, (nanos % second).toNat⟩

/-- The instant a number of nanoseconds later. Inside a leap second the movement counts against the
prolonged second until it leaves it. -/
def moved (t : Instant) (ns : Int) : Instant :=
  let whole := ns.tdiv second
  let part := ns.tmod second
  let nanos : Int := t.nanos
  if t.isLeap then
    if 0 < whole ∨ (0 < part ∧ 2 * (second : Int) - part ≤ nanos) then
      normal (t.seconds + whole) (nanos - second + part)
    else if whole < 0 then normal (t.seconds + 1 + whole) (nanos - second + part)
    else ⟨t.seconds, (nanos + part).toNat⟩
  else normal (t.seconds + whole) (nanos + part)

/-- The instant a number of nanoseconds later; `none` beyond the last one. -/
def plus? (t : Instant) (ns : Int) : Option Instant :=
  let u := t.moved ns
  if u.inRange then some u else none

/-- A microsecond in nanoseconds. -/
def microsecond : Int := 1000

/-- A millisecond in nanoseconds. -/
def millisecond : Int := 1000000

end Instant

end ControlPlane
