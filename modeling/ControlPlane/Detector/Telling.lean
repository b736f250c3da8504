import ControlPlane.Detector.Event
import ControlPlane.Number.Shortest
import ControlPlane.Trace.Line

/-!
# What the detector tells

The lines of a trace for the things that happen while the detector runs.
-/

namespace ControlPlane

/-- The word for a node's status in a trace. -/
def NodeStatus.word : NodeStatus → String
  | .unknown => "Unknown"
  | .online => "Online"
  | .offline => "Offline"
  | .error => "Error"

/-- The word for a replica's status in a trace. -/
def ReplicaStatus.word : ReplicaStatus → String
  | .pending => "Pending"
  | .running => "Running"
  | .completed => "Completed"
  | .failed => "Failed"
  | .unknown => "Unknown"

/-- How floating-point numbers are written in a trace: with a point from 0.0001 up to, but not
including, 1e16. -/
def Trace.layout : Double.Layout := ⟨-4, 16, false⟩

namespace Detector

open Trace (Line Level)

/-- The part of the program that the detector is. -/
def target : String := "edgernetes_control::heartbeat"

/-- A line of the detector. -/
def line (level : Level) (message : String) (fields : List (String × String)) : Line :=
  ⟨level, target, message, fields⟩

/-- The line for something that happened, if it is told at all. -/
def Event.line? : Event → Option Line
  | .answered _ | .verdictStored _ _ => none
  | .selfCheckFailed node =>
    some (line .warn "node answered heartbeat but its self-check failed" [("node_id", node)])
  | .replicaMissing node replica =>
    some (line .warn "assigned replica not in registry, skipping"
      [("node_id", node), ("replica_id", replica)])
  | .replicaUnread node replica e =>
    some (line .warn "failed to load replica"
      [("node_id", node), ("replica_id", replica), ("error", e.message)])
  | .replicaAbsent node replica =>
    some (line .info "replica missing from heartbeat, marking unknown"
      [("node_id", node), ("replica_id", replica)])
  | .replicaUnstored node replica e =>
    some (line .warn "failed to update replica"
      [("node_id", node), ("replica_id", replica), ("error", e.message)])
  | .replicaUpdated node replica status =>
    some (line .debug "replica status updated"
      [("node_id", node), ("replica_id", replica), ("status", status.word)])
  | .statusChanged node before after =>
    some (line .info "node status changed"
      [("node_id", node), ("from", before.word), ("to", after.word)])
  | .heartbeatUnstored node e =>
    some (line .warn "failed to record heartbeat" [("node_id", node), ("error", e.message)])
  | .silent node e verdict =>
    let message :=
      if verdict = .offline then "node silent past grace window, marking offline"
      else "heartbeat failed, marking unknown"
    some (line .warn message [("node_id", node), ("error", e.message)])
  | .verdictUnstored node e =>
    some (line .warn "failed to update node status" [("node_id", node), ("error", e.message)])

/-- A number of seconds in a trace. -/
def seconds (n : Nat) : String :=
  String.ofList (Double.render Trace.layout (Double.ofNat n))

/-- The line for the start of the detector. -/
def startLine (interval grace : Nat) : Line :=
  line .info "heartbeat monitor started"
    [("interval_secs", seconds interval), ("offline_after_secs", seconds grace)]

/-- The text of a report in a trace. -/
def Report.text (r : Report) : String :=
  let counts := [("probed", r.probed), ("succeeded", r.succeeded),
    ("marked_unknown", r.markedUnknown), ("marked_offline", r.markedOffline),
    ("replicas_updated", r.replicasUpdated), ("replicas_skipped", r.replicasSkipped)]
  "TickReport \x7b " ++
    ", ".intercalate (counts.map fun (name, n) => name ++ ": " ++ Numeral.text n) ++ " \x7d"

/-- The lines for a pass. -/
def passLines (result : Except RegistryError (List Event)) : List Line :=
  match result with
  | .ok events =>
    events.filterMap Event.line? ++
      [line .debug "heartbeat tick finished" [("report", (Report.ofEvents events).text)]]
  | .error e => [line .warn "heartbeat tick failed" [("error", e.message)]]

end Detector

end ControlPlane
