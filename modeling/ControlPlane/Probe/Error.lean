import ControlPlane.Text.Numeral

/-!
# Failed probes

Why a node could not be asked for a heartbeat or gave no usable answer. What the network said is
kept as a text of its own.
-/

namespace ControlPlane

/-- What went wrong on the way to a node. -/
inductive TransportFault where
  | timeout
  | connect
  | other
  deriving DecidableEq, Repr

/-- The word for a fault on the way. -/
def TransportFault.word : TransportFault → String
  | .timeout => "timeout"
  | .connect => "connect"
  | .other => "other"

/-- Why a probe failed. -/
inductive ProbeError where
  /-- The node has no address. -/
  | noAddress (nodeId : String)
  /-- No answer came. -/
  | transport (address : String) (fault : TransportFault) (detail : String)
  /-- The answer had a status that is no success. -/
  | status (address : String) (code : Nat) (reason : String)
  /-- The answer was no heartbeat. -/
  | decode (address : String) (detail : String)
  deriving DecidableEq, Repr

namespace ProbeError

/-- The wording of an error without what the network said. -/
def headline : ProbeError → String
  | .noAddress nodeId => s!"node {nodeId} has no reachable address"
  | .transport address fault _ =>
    let word := fault.word
    s!"heartbeat to {address} failed ({word})"
  | .status address code reason =>
    "heartbeat to " ++ address ++ " returned " ++ Numeral.text code ++ " " ++ reason
  | .decode address _ => s!"decode heartbeat response from {address}"

/-- What the network said. -/
def detail? : ProbeError → Option String
  | .transport _ _ detail | .decode _ detail => some detail
  | .noAddress _ | .status _ _ _ => none

/-- The wording of an error. -/
def message (e : ProbeError) : String :=
  match e.detail? with
  | some detail => e.headline ++ ": " ++ detail
  | none => e.headline

/-- The address that was asked. -/
def address? : ProbeError → Option String
  | .noAddress _ => none
  | .transport address _ _ | .status address _ _ | .decode address _ => some address

end ProbeError

end ControlPlane
