import ControlPlane.Entity.Replica

/-!
# Heartbeats

What the control plane asks a node's agent and what the agent answers: how the node itself is and
how each replica on it is doing.
-/

namespace ControlPlane

/-- The question to a node. -/
structure HeartbeatRequest where
  nodeId : String
  deriving DecidableEq, Repr

/-- Questions as text. -/
def HeartbeatRequest.codec : Codec HeartbeatRequest :=
  .record "HeartbeatRequest" (.cons (.required "node_id" .string) .nil)
    (fun (nodeId, ()) => ⟨nodeId⟩) (fun r => (r.nodeId, ()))

/-- What a node says about one replica. -/
structure ReplicaReport where
  replicaId : String
  modelId : String
  name : String
  version : String
  status : String
  errorCode : Int32
  errorMessage : String
  deriving DecidableEq, Repr

/-- Reports as text. -/
def ReplicaReport.codec : Codec ReplicaReport :=
  .record "ReplicaReport"
    (.cons (.required "replica_id" .string) <| .cons (.required "model_id" .string) <|
      .cons (.required "name" .string) <| .cons (.required "version" .string) <|
      .cons (.required "status" .string) <| .cons (.required "error_code" .i32) <|
      .cons (.required "error_message" .string) .nil)
    (fun (replicaId, modelId, name, version, status, errorCode, errorMessage, ()) =>
      ⟨replicaId, modelId, name, version, status, errorCode, errorMessage⟩)
    (fun r =>
      (r.replicaId, r.modelId, r.name, r.version, r.status, r.errorCode, r.errorMessage, ()))

/-- The answer of a node. `success` is what its check of itself found. -/
structure HeartbeatResponse where
  nodeId : String
  success : Bool
  replicas : List ReplicaReport := []
  deriving DecidableEq, Repr

/-- Answers as text. -/
def HeartbeatResponse.codec : Codec HeartbeatResponse :=
  .record "HeartbeatResponse"
    (.cons (.required "node_id" .string) <| .cons (.required "success" .bool) <|
      .cons (.orElse "model_replicas" [] (.list ReplicaReport.codec)) .nil)
    (fun (nodeId, success, replicas, ()) => ⟨nodeId, success, replicas⟩)
    (fun r => (r.nodeId, r.success, r.replicas, ()))

/-- What an answer says about a replica: the first report that names it, or nothing. -/
def HeartbeatResponse.observe (r : HeartbeatResponse) (replicaId : String) : Option ReplicaReport :=
  r.replicas.find? (·.replicaId == replicaId)

/-- A replica after an answer about it: the report decides its status and error, and one that is
absent from the answer only loses its status. -/
def Replica.observed (r : Replica) (report : Option ReplicaReport) (now : Instant) : Replica :=
  match report with
  | some report =>
    { r with
      status := .ofReport report.status
      errorCode := report.errorCode
      errorMessage := report.errorMessage
      lastHeartbeat := some now }
  | none => { r with status := .unknown, lastHeartbeat := some now }

end ControlPlane
