import ControlPlane.Entity.Model
import ControlPlane.Entity.Node
import ControlPlane.Entity.Replica

/-!
# Forms

The bodies of requests that are no records of a registry.
-/

namespace ControlPlane.Api

/-- A node to register. -/
structure NodeForm where
  name : String
  ip : String
  port : UInt16
  metadata : Metadata
  network : Network
  capabilities : Capabilities
  assignedReplicas : List String
  deriving DecidableEq, Repr

namespace NodeForm

/-- Nodes to register as text. -/
def codec : Codec NodeForm :=
  .record "RegisterNodeRequest"
    (.cons (.required "name" .string) <| .cons (.required "ip" .string) <|
      .cons (.required "port" .u16) <| .cons (.orElse "metadata" {} Metadata.codec) <|
      .cons (.orElse "network_info" {} Network.codec) <|
      .cons (.orElse "resource_capabilities" {} Capabilities.codec) <|
      .cons (.orElse "assigned_replicas" [] (.list .string)) .nil)
    (fun (name, ip, port, metadata, network, capabilities, assignedReplicas, ()) =>
      ⟨name, ip, port, metadata, network, capabilities, assignedReplicas⟩)
    (fun f =>
      (f.name, f.ip, f.port, f.metadata, f.network, f.capabilities, f.assignedReplicas, ()))

/-- The node of a form, with the given id. Nothing is known yet of its status. -/
def node (f : NodeForm) (id : String) : Node where
  id := id
  name := f.name
  ip := f.ip
  port := f.port
  metadata := f.metadata
  network := f.network
  capabilities := f.capabilities
  status := .unknown
  assignedReplicas := f.assignedReplicas

end NodeForm

/-- New values for some fields of a node. -/
structure NodePatch where
  name : Option String := none
  ip : Option String := none
  port : Option UInt16 := none
  metadata : Option Metadata := none
  network : Option Network := none
  capabilities : Option Capabilities := none
  assignedReplicas : Option (List String) := none
  deriving DecidableEq, Repr

namespace NodePatch

/-- Patches as text. -/
def codec : Codec NodePatch :=
  .record "UpdateNodeRequest"
    (.cons (.ifGiven "name" .string) <| .cons (.ifGiven "ip" .string) <|
      .cons (.ifGiven "port" .u16) <| .cons (.ifGiven "metadata" Metadata.codec) <|
      .cons (.ifGiven "network_info" Network.codec) <|
      .cons (.ifGiven "resource_capabilities" Capabilities.codec) <|
      .cons (.ifGiven "assigned_replicas" (.list .string)) .nil)
    (fun (name, ip, port, metadata, network, capabilities, assignedReplicas, ()) =>
      ⟨name, ip, port, metadata, network, capabilities, assignedReplicas⟩)
    (fun p =>
      (p.name, p.ip, p.port, p.metadata, p.network, p.capabilities, p.assignedReplicas, ()))

/-- A node with the new values. Fields without one keep theirs. -/
def apply (p : NodePatch) (n : Node) : Node :=
  { n with
    name := p.name.getD n.name
    ip := p.ip.getD n.ip
    port := p.port.getD n.port
    metadata := p.metadata.getD n.metadata
    network := p.network.getD n.network
    capabilities := p.capabilities.getD n.capabilities
    assignedReplicas := p.assignedReplicas.getD n.assignedReplicas }

end NodePatch

/-- A new status for a node. -/
structure StatusForm where
  status : NodeStatus
  deriving DecidableEq, Repr

/-- New statuses as text. -/
def StatusForm.codec : Codec StatusForm :=
  .record "UpdateNodeStatusRequest" (.cons (.required "status" NodeStatus.codec) .nil)
    (fun (status, ()) => ⟨status⟩) (fun f => (f.status, ()))

end ControlPlane.Api
