import ControlPlane.Json.Record

/-!
# Replicas

Single runs of a model on a node.
-/

namespace ControlPlane

/-- How far a replica has come. -/
inductive ReplicaStatus where
  | pending
  | running
  | completed
  | failed
  | unknown
  deriving DecidableEq, Repr

/-- The states of a replica by name. -/
def ReplicaStatus.names : List (String × ReplicaStatus) :=
  [("pending", .pending), ("running", .running), ("completed", .completed), ("failed", .failed),
    ("unknown", .unknown)]

/-- The name of a replica's status. -/
def ReplicaStatus.name : ReplicaStatus → String
  | .pending => "pending"
  | .running => "running"
  | .completed => "completed"
  | .failed => "failed"
  | .unknown => "unknown"

/-- States of replicas as text. -/
def ReplicaStatus.codec : Codec ReplicaStatus :=
  .enumeration names name

/-- The status that a node reports by a word; any word that names none is `unknown`. -/
def ReplicaStatus.ofReport (word : String) : ReplicaStatus :=
  match names.find? (·.1 == word) with
  | some (_, status) => status
  | none => .unknown

/-- A replica of a model. -/
structure Replica where
  id : String := ""
  modelId : String
  name : String := ""
  status : ReplicaStatus := .pending
  errorCode : Int32 := 0
  errorMessage : String := ""
  lastHeartbeat : Option Instant := none
  deriving DecidableEq, Repr

/-- Replicas as text. -/
def Replica.codec : Codec Replica :=
  .record "ReplicaInfo"
    (.cons (.orElse "id" "" .string) <| .cons (.required "model_id" .string) <|
      .cons (.orElse "name" "" .string) <|
      .cons (.orElse "status" .pending ReplicaStatus.codec) <|
      .cons (.orElse "error_code" 0 .i32) <| .cons (.orElse "error_message" "" .string) <|
      .cons (.optional "last_heartbeat" .instant) .nil)
    (fun (id, modelId, name, status, errorCode, errorMessage, lastHeartbeat, ()) =>
      ⟨id, modelId, name, status, errorCode, errorMessage, lastHeartbeat⟩)
    (fun r => (r.id, r.modelId, r.name, r.status, r.errorCode, r.errorMessage, r.lastHeartbeat, ()))

end ControlPlane
