import ControlPlane.Detector.Event
import ControlPlane.Detector.Silence
import ControlPlane.Entity.Heartbeat

/-!
# A pass of the detector

A pass asks every node that is online or unknown once. What an answer says about the replicas
assigned to the node goes into their records (`reconcile`), and that it came goes into the record of
the node (`onAnswer`); a node that does not answer gets a status by its silence (`onSilence`).

The node that is dealt with is the one that was listed at the start of the pass. Its record and
those of its replicas are read again when they are changed, so that what happened in the meantime is
kept. The clock is read twice for a node: when it is known what came of asking, and when the record
of the node is stamped (`Readings`).

Failing to list the nodes is the only error of a pass. Whatever goes wrong with a node or a replica
is an event, but a pass ends at once where no later time is left to stamp a node with.
-/

namespace ControlPlane.Detector

/-- What came of a step: the events, and whether the pass has to stop. -/
structure Progress where
  backing : Backing
  events : List Event
  stopped : Bool := false

namespace Progress

/-- A step after which the pass goes on. -/
def went (backing : Backing) (events : List Event) : Progress :=
  { backing := backing, events := events }

/-- The progress of a step after this one. Nothing comes after the end of a pass. -/
def andThen (p : Progress) (next : Backing → Progress) : Progress :=
  if p.stopped then p
  else
    let q := next p.backing
    { q with events := p.events ++ q.events }

end Progress

/-- The states in which a node is asked for a heartbeat. -/
def probedStatuses : List NodeStatus := [.online, .unknown]

/-- What the clock shows while a node is dealt with: when it is known what came of asking, and when
the record of the node is stamped. -/
structure Readings where
  ended : Instant
  stamping : Instant
  deriving DecidableEq, Repr

/-- A clock that stands still shows one time. -/
instance : Coe Instant Readings where
  coe time := ⟨time, time⟩

/-! ## An answer -/

/-- Brings the record of an assigned replica in line with an answer. -/
def reconcileOne (node : String) (r : HeartbeatResponse) (now : Instant) (b : Backing)
    (replicaId : String) : Progress :=
  match replicas.get b.store replicaId with
  | .ok (some replica) =>
    let report := r.observe replicaId
    let replica := replica.observed report now
    let absent := if report.isNone then [Event.replicaAbsent node replicaId] else []
    match b.perform ((replicas.put replicaId replica).map fun c => (c, ())) with
    | (.ok (), b) => .went b (absent ++ [.replicaUpdated node replicaId replica.status])
    | (.error e, b) => .went b (absent ++ [.replicaUnstored node replicaId e])
  | .ok none => .went b [.replicaMissing node replicaId]
  | .error e => .went b [.replicaUnread node replicaId e]

/-- Brings the records of assigned replicas in line with an answer, one after the other. -/
def reconcile (node : String) (r : HeartbeatResponse) (now : Instant) (b : Backing)
    (assigned : List String) : Progress :=
  assigned.foldl (fun p id => p.andThen fun b => reconcileOne node r now b id) (.went b [])

/-- Notes in the record of a node that it answered. -/
def noteHeartbeat (n : Node) (now : Readings) (b : Backing) : Progress :=
  match b.perform (Node.recordHeartbeat b.store now.stamping n.id now.ended) with
  | (.ok status, b) =>
    .went b (if status = n.status then [] else [.statusChanged n.id n.status status])
  | (.error .noLaterTime, b) => { backing := b, events := [], stopped := true }
  | (.error e, b) => .went b [.heartbeatUnstored n.id e]

/-- Deals with the answer of a node. -/
def onAnswer (n : Node) (r : HeartbeatResponse) (now : Readings) (b : Backing) : Progress :=
  let first := Event.answered n.id :: if r.success then [] else [.selfCheckFailed n.id]
  (Progress.went b first).andThen fun b =>
    (reconcile n.id r now.ended b n.assignedReplicas).andThen (noteHeartbeat n now)

/-! ## No answer -/

/-- Deals with a node that did not answer. -/
def onSilence (n : Node) (e : ProbeError) (grace : Nat) (now : Readings) (b : Backing) :
    Progress :=
  let status := verdict (lastSeen n) now.ended grace
  let first := Event.silent n.id e status
  let decision := Node.markUnreachable b.store now.stamping n.id status
  match b.perform (decision.map fun c => (c, ())) with
  | (.ok (), b) => .went b [first, .verdictStored n.id status]
  | (.error .noLaterTime, b) => { backing := b, events := [first], stopped := true }
  | (.error e, b) => .went b [first, .verdictUnstored n.id e]

/-- Deals with what came of asking a node. -/
def onOutcome (grace : Nat) (n : Node) (outcome : Except ProbeError HeartbeatResponse)
    (now : Readings) (b : Backing) : Progress :=
  match outcome with
  | .ok r => onAnswer n r now b
  | .error e => onSilence n e grace now b

/-! ## The pass -/

/-- The state that a pass works on: the store, what the clock shows while the node asked last is
dealt with, and whatever the probe keeps. -/
structure Scene (σ : Type) where
  backing : Backing
  readings : Readings
  probe : σ

/-- When it was known what came of asking a node. -/
def Scene.clock {σ : Type} (scene : Scene σ) : Instant :=
  scene.readings.ended

/-- A way to ask nodes. Asking takes time, and meanwhile anything may happen to the store. Nothing
comes of it if the detector is ended in between. -/
abbrev Prober (σ : Type) := Node → Scene σ → Option (Except ProbeError HeartbeatResponse) × Scene σ

/-- How a pass ended. -/
inductive Ending where
  /-- Every node was dealt with. -/
  | finished
  /-- The detector was ended while a node was asked. -/
  | interrupted
  /-- No later time was left to stamp a node with. -/
  | noLaterTime
  deriving DecidableEq, Repr

/-- What came of a pass: the scene after it, the nodes that were asked, in order, the events, and
how it ended. -/
structure Outcome (σ : Type) where
  scene : Scene σ
  asked : List String
  events : List Event
  ending : Ending

/-- Asks nodes in their order. -/
def visit {σ : Type} (ask : Prober σ) (grace : Nat) : List Node → Scene σ → Outcome σ
  | [], scene => ⟨scene, [], [], .finished⟩
  | n :: rest, scene =>
    match ask n scene with
    | (none, scene) => ⟨scene, [n.id], [], .interrupted⟩
    | (some outcome, scene) =>
      let p := onOutcome grace n outcome scene.readings scene.backing
      let scene := { scene with backing := p.backing }
      if p.stopped then ⟨scene, [n.id], p.events, .noLaterTime⟩
      else
        let o := visit ask grace rest scene
        { o with asked := n.id :: o.asked, events := p.events ++ o.events }

/-- One pass over all nodes that are to be asked. -/
def pass {σ : Type} (ask : Prober σ) (grace : Nat) (scene : Scene σ) :
    Except RegistryError (Outcome σ) := do
  let ns ← nodesWithStatus scene.backing.store probedStatuses
  return visit ask grace ns scene

end ControlPlane.Detector
