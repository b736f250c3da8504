import ControlPlane.Entity.Hardware

/-!
# Nodes

The machines of the cluster: who they are, where their agents are reached, what they run and when
they were last heard of.
-/

namespace ControlPlane

/-! ## Status -/

/-- What is known about whether a node is up. -/
inductive NodeStatus where
  | unknown
  | online
  | offline
  | error
  deriving DecidableEq, Repr

/-- The states of a node by name. -/
def NodeStatus.names : List (String × NodeStatus) :=
  [("unknown", .unknown), ("online", .online), ("offline", .offline), ("error", .error)]

/-- The name of a node's status. -/
def NodeStatus.name : NodeStatus → String
  | .unknown => "unknown"
  | .online => "online"
  | .offline => "offline"
  | .error => "error"

/-- States of nodes as text. -/
def NodeStatus.codec : Codec NodeStatus :=
  .enumeration names name

/-! ## Descriptions -/

/-- The software that a node runs. -/
structure Metadata where
  osType : String := ""
  osVersion : String := ""
  agentVersion : String := ""
  hostname : String := ""
  deriving DecidableEq, Repr

/-- Metadata as text. -/
def Metadata.codec : Codec Metadata :=
  .record "NodeMetadata"
    (.cons (.orElse "os_type" "" .string) <| .cons (.orElse "os_version" "" .string) <|
      .cons (.orElse "agent_version" "" .string) <| .cons (.orElse "hostname" "" .string) .nil)
    (fun (osType, osVersion, agentVersion, hostname, ()) =>
      ⟨osType, osVersion, agentVersion, hostname⟩)
    (fun m => (m.osType, m.osVersion, m.agentVersion, m.hostname, ()))

/-- The network that a node is connected to. -/
structure Network where
  kind : String := ""
  bandwidthMbps : UInt64 := 0
  isMetered : Bool := false
  latencyMs : UInt32 := 0
  deriving DecidableEq, Repr

/-- Networks as text. -/
def Network.codec : Codec Network :=
  .record "NetworkInfo"
    (.cons (.orElse "type" "" .string) <| .cons (.orElse "bandwidth_mbps" 0 .u64) <|
      .cons (.orElse "is_metered" false .bool) <| .cons (.orElse "latency_ms" 0 .u32) .nil)
    (fun (kind, bandwidthMbps, isMetered, latencyMs, ()) =>
      ⟨kind, bandwidthMbps, isMetered, latencyMs⟩)
    (fun n => (n.kind, n.bandwidthMbps, n.isMetered, n.latencyMs, ()))

/-! ## Nodes -/

/-- A node of the cluster. `ip` and `port` are those of its agent. -/
structure Node where
  id : String := ""
  name : String
  ip : String
  port : UInt16
  metadata : Metadata := {}
  network : Network := {}
  capabilities : Capabilities := {}
  status : NodeStatus := .unknown
  assignedReplicas : List String := []
  registeredAt : Option Instant := none
  updatedAt : Option Instant := none
  lastHeartbeat : Option Instant := none
  lastActivity : Option Instant := none
  deriving DecidableEq, Repr

/-- Nodes as text. -/
def Node.codec : Codec Node :=
  .record "NodeInfo"
    (.cons (.orElse "id" "" .string) <| .cons (.required "name" .string) <|
      .cons (.required "ip" .string) <| .cons (.required "port" .u16) <|
      .cons (.orElse "metadata" {} Metadata.codec) <|
      .cons (.orElse "network_info" {} Network.codec) <|
      .cons (.orElse "resource_capabilities" {} Capabilities.codec) <|
      .cons (.orElse "status" .unknown NodeStatus.codec) <|
      .cons (.orElse "assigned_replicas" [] (.list .string)) <|
      .cons (.optional "registered_at" .instant) <| .cons (.optional "updated_at" .instant) <|
      .cons (.optional "last_heartbeat" .instant) <|
      .cons (.optional "last_activity" .instant) .nil)
    (fun (id, name, ip, port, metadata, network, capabilities, status, assignedReplicas,
        registeredAt, updatedAt, lastHeartbeat, lastActivity, ()) =>
      ⟨id, name, ip, port, metadata, network, capabilities, status, assignedReplicas, registeredAt,
        updatedAt, lastHeartbeat, lastActivity⟩)
    (fun n => (n.id, n.name, n.ip, n.port, n.metadata, n.network, n.capabilities, n.status,
      n.assignedReplicas, n.registeredAt, n.updatedAt, n.lastHeartbeat, n.lastActivity, ()))

end ControlPlane
