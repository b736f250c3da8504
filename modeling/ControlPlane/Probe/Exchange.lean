import ControlPlane.Entity.Heartbeat
import ControlPlane.Http.Reason
import ControlPlane.Http.Url
import ControlPlane.Probe.Address
import ControlPlane.Probe.Error

/-!
# Exchanges

How a node is asked for a heartbeat over HTTP: the request that is sent to its address, and what
follows from the way in which the other side reacts (`Probe.exchange`).
-/

namespace ControlPlane.Probe

/-! ## The request -/

/-- What is sent to a node. -/
structure Question where
  line : String
  contentType : String
  body : String
  deriving DecidableEq, Repr

/-- The question to a node. -/
def question (n : Node) : Question where
  line := "POST /heartbeat HTTP/1.1"
  contentType := "application/json"
  body := HeartbeatRequest.codec.toText ⟨n.id⟩

/-! ## The other side -/

/-- What comes back. `length` is how long the body is said to be. -/
structure RawReply where
  status : Nat
  length : Nat
  body : Bytes
  deriving DecidableEq, Repr

/-- How the other side reacts. Times are in milliseconds. -/
inductive Reaction where
  /-- It does not let itself be called. -/
  | refuses
  /-- It takes the question, waits and then sends a reply or nothing. -/
  | takes (wait : Nat) (reply : Option RawReply)
  deriving DecidableEq, Repr

/-! ## What follows -/

/-- The body that is received. None comes with a status that has no body, and nothing is received of
one that is shorter than it is said to be. -/
def RawReply.received? (r : RawReply) : Option Bytes :=
  if r.status = 204 then some []
  else if r.body.length < r.length then none
  else some (r.body.take r.length)

/-- What a reply says. -/
def RawReply.read (r : RawReply) (address : String) : Except ProbeError HeartbeatResponse :=
  if r.status < 200 ∧ r.status ≠ 101 then
    .error (.transport address .other s!"error sending request for url ({address})")
  else if r.status < 200 ∨ 300 ≤ r.status then
    .error (.status address r.status (Http.reason r.status))
  else
    let unreadable := ProbeError.decode address "error decoding response body"
    match r.received? with
    | none => .error unreadable
    | some body =>
      match HeartbeatResponse.codec.ofBytes body with
      | .ok response => .ok response
      | .error _ => .error unreadable

/-- What comes of asking a node, and the question if it was received. No more than `limit`
milliseconds are spent on it. -/
def exchange (n : Node) (limit : Nat) (r : Reaction) :
    Except ProbeError HeartbeatResponse × Option Question :=
  match nodeAddress? n with
  | none => (.error (.noAddress n.id), none)
  | some address =>
    if !Http.Url.isValid address then (.error (.transport address .other "builder error"), none)
    else
      let unsent := s!"error sending request for url ({address})"
      match r with
      | .refuses => (.error (.transport address .connect unsent), none)
      | .takes wait reply =>
        let result :=
          if limit ≤ wait then .error (.transport address .timeout unsent)
          else match reply with
            | none => .error (.transport address .other unsent)
            | some reply => reply.read address
        (result, some (question n))

end ControlPlane.Probe
