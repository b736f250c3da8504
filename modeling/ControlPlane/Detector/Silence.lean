import ControlPlane.Entity.Node
import ControlPlane.Time.Span

/-!
# Silence

How long a node has been silent and what that makes of its status when it fails to answer. The
detector counts nanoseconds (`silence`, `verdict`); the same in spans of time, which might be too
long, are `silentFor?` and `verdict?`.
-/

namespace ControlPlane.Detector

/-- For how many nanoseconds a node last heard of at `seen` has been silent. A clock that went
backwards counts as no silence at all. -/
def silence (seen now : Instant) : Nat :=
  (now.since seen).toNat

/-- The status of a node that failed to answer: offline once it has been silent for more than
`grace` nanoseconds or was never heard of, otherwise unknown. -/
def verdict (seen : Option Instant) (now : Instant) (grace : Nat) : NodeStatus :=
  match seen with
  | none => .offline
  | some seen => if grace < silence seen now then .offline else .unknown

/-- The silence of a node last heard of at `seen`, unless it is too long for a span. A clock that
went backwards counts as no silence at all. -/
def silentFor? (seen now : Instant) : Option Duration :=
  (now.elapsed? seen).map fun s => s.toDuration?.getD .zero

/-- The status of a node that failed to answer, where silence is tolerated for the given duration;
`none` where it is silent for too long to tell. -/
def verdict? (seen : Option Instant) (now : Instant) (grace : Duration) : Option NodeStatus :=
  match seen with
  | none => some .offline
  | some seen => (silentFor? seen now).map fun silent =>
    if grace.shorter silent then .offline else .unknown

/-- When a node was last heard of: at its last heartbeat, or else at its registration. -/
def lastSeen (n : Node) : Option Instant :=
  n.lastHeartbeat <|> n.registeredAt

end ControlPlane.Detector
