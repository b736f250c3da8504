import ControlPlane.Registry.Kinds

/-!
# What becomes of a node

The operations on the record of a node and the times they leave in it. Every one stamps the record
with the time of the change, which is always later than the stamp before (`nextStamp`).
-/

namespace ControlPlane

/-- Whether a change of status counts as a sign of life. -/
inductive StatusPolicy where
  | refreshHeartbeat
  | leaveHeartbeat
  deriving DecidableEq, Repr

/-- The stamp of a change made at `now` after one stamped `previous`: the time itself or, if that is
not later, a microsecond after the previous stamp. -/
def nextStamp (now : Instant) (previous : Option Instant) : Except RegistryError Instant :=
  match previous with
  | none => .ok now
  | some previous =>
    if previous.before now then .ok now
    else match previous.plus? Instant.microsecond with
      | some t => .ok t
      | none => .error .noLaterTime

namespace Node

/-! ## Records after an operation -/

/-- A node as it is registered. -/
def registered (n : Node) (now : Instant) : Node :=
  { n with
    registeredAt := some (n.registeredAt.getD now)
    updatedAt := some now
    lastActivity := some now }

/-- A node with the times of an older record where it has none of its own. -/
def inheriting (n : Node) (older : Node) : Node :=
  { n with
    registeredAt := n.registeredAt <|> older.registeredAt
    lastHeartbeat := n.lastHeartbeat <|> older.lastHeartbeat
    lastActivity := n.lastActivity <|> older.lastActivity }

/-- A node whose record is replaced. -/
def updated (n : Node) (stamp : Instant) : Node :=
  { n with
    registeredAt := some (n.registeredAt.getD stamp)
    updatedAt := some stamp
    lastActivity := some (n.lastActivity.getD stamp) }

/-- A node whose status is set by hand. -/
def withStatus (n : Node) (status : NodeStatus) (policy : StatusPolicy) (stamp : Instant) : Node :=
  { n with
    status := status
    updatedAt := some stamp
    lastHeartbeat := if policy = .refreshHeartbeat then some stamp else n.lastHeartbeat
    lastActivity := some (n.lastActivity.getD stamp) }

/-- A node that did not answer. -/
def unreachable (n : Node) (status : NodeStatus) (stamp : Instant) : Node :=
  { n with status := status, updatedAt := some stamp }

/-- A node that answered at `time`. One whose status was unknown is online again. -/
def heard (n : Node) (time stamp : Instant) : Node :=
  { n with
    status := if n.status = .unknown then .online else n.status
    updatedAt := some stamp
    lastHeartbeat := some time
    lastActivity := some time }

/-! ## Decisions -/

/-- Registers a node, in the place of one with the same id. -/
def register (now : Instant) (id : String) (n : Node) : Except RegistryError Change := do
  let n ← nodes.stamp id n
  return nodes.write id (n.registered now)

/-- Replaces the record of a node. Times that the new record does not give are taken over from the
old one. -/
def update (s : Store) (now : Instant) (id : String) (n : Node) : Except RegistryError Change := do
  let n ← nodes.stamp id n
  match ← nodes.get s id with
  | some older => do
    let stamp ← nextStamp now older.updatedAt
    return nodes.write id ((n.inheriting older).updated stamp)
  | none => return nodes.write id (n.updated now)

/-- Sets the status of a node. -/
def setStatus (s : Store) (now : Instant) (policy : StatusPolicy) (id : String)
    (status : NodeStatus) : Except RegistryError Change := do
  let n ← nodes.require s id
  let stamp ← nextStamp now n.updatedAt
  return nodes.write id (n.withStatus status policy stamp)

/-- Sets the status of a node that did not answer. This is no sign of life. -/
def markUnreachable (s : Store) (now : Instant) (id : String) (status : NodeStatus) :
    Except RegistryError Change := do
  let n ← nodes.require s id
  let stamp ← nextStamp now n.updatedAt
  return nodes.write id (n.unreachable status stamp)

/-- Notes an answer of a node and tells the status that the node has then. -/
def recordHeartbeat (s : Store) (now : Instant) (id : String) (time : Instant) :
    Except RegistryError (Change × NodeStatus) := do
  let n ← nodes.require s id
  let stamp ← nextStamp now n.updatedAt
  let n := n.heard time stamp
  return (nodes.write id n, n.status)

end Node

end ControlPlane
