import ControlPlane.Probe.Error
import ControlPlane.Registry.Node

/-!
# What a pass of the detector does

The detector tells what it did as a list of events, in order. How often each kind of thing happened
is counted from them (`Report.ofEvents`).
-/

namespace ControlPlane.Detector

/-- Something that happened while one node was dealt with. -/
inductive Event where
  /-- The node answered. -/
  | answered (node : String)
  /-- The node answered that something is wrong with it. -/
  | selfCheckFailed (node : String)
  /-- A replica assigned to the node is in no registry. -/
  | replicaMissing (node replica : String)
  /-- A replica assigned to the node could not be read. -/
  | replicaUnread (node replica : String) (e : RegistryError)
  /-- The answer did not name a replica assigned to the node. -/
  | replicaAbsent (node replica : String)
  /-- What the answer said of a replica could not be stored. -/
  | replicaUnstored (node replica : String) (e : RegistryError)
  /-- What the answer said of a replica is stored. -/
  | replicaUpdated (node replica : String) (status : ReplicaStatus)
  /-- The answer changed the status of the node. -/
  | statusChanged (node : String) (before after : NodeStatus)
  /-- That the node answered could not be stored. -/
  | heartbeatUnstored (node : String) (e : RegistryError)
  /-- The node did not answer and is to get a status for it. -/
  | silent (node : String) (e : ProbeError) (verdict : NodeStatus)
  /-- The status for not answering could not be stored. -/
  | verdictUnstored (node : String) (e : RegistryError)
  /-- The status for not answering is stored. -/
  | verdictStored (node : String) (verdict : NodeStatus)
  deriving DecidableEq, Repr

/-- How often each kind of thing happened in a pass. -/
structure Report where
  probed : Nat := 0
  succeeded : Nat := 0
  markedUnknown : Nat := 0
  markedOffline : Nat := 0
  replicasUpdated : Nat := 0
  replicasSkipped : Nat := 0
  deriving DecidableEq, Repr

/-- A report with one more event. -/
def Report.count (r : Report) : Event → Report
  | .answered _ => { r with probed := r.probed + 1, succeeded := r.succeeded + 1 }
  | .silent _ _ _ => { r with probed := r.probed + 1 }
  | .replicaMissing _ _ | .replicaUnread _ _ _ | .replicaUnstored _ _ _ =>
    { r with replicasSkipped := r.replicasSkipped + 1 }
  | .replicaUpdated _ _ _ => { r with replicasUpdated := r.replicasUpdated + 1 }
  | .verdictStored _ .offline => { r with markedOffline := r.markedOffline + 1 }
  | .verdictStored _ _ => { r with markedUnknown := r.markedUnknown + 1 }
  | .selfCheckFailed _ | .replicaAbsent _ _ | .statusChanged _ _ _ | .heartbeatUnstored _ _
  | .verdictUnstored _ _ => r

/-- The report of a pass. -/
def Report.ofEvents (es : List Event) : Report :=
  es.foldl Report.count {}

end ControlPlane.Detector
