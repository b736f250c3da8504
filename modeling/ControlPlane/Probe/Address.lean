import ControlPlane.Entity.Node

/-!
# Addresses

Where the agent of a node is asked for a heartbeat.
-/

namespace ControlPlane.Probe

/-- The host part of an address; one with a colon is put into brackets. -/
def host (ip : String) : String :=
  if ip.toList.contains ':' && ip.toList.head? != some '[' then "[" ++ ip ++ "]" else ip

/-- The address that takes heartbeat requests for a node, if the node has an address at all. -/
def address? (ip : String) (port : UInt16) : Option String :=
  if ip.isEmpty || port = 0 then none
  else some ("http://" ++ host ip ++ ":" ++ Numeral.text port.toNat ++ "/heartbeat")

/-- The address for a node. -/
def nodeAddress? (n : Node) : Option String :=
  address? n.ip n.port

end ControlPlane.Probe
