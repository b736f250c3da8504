import ControlPlane.Api.Command
import ControlPlane.Detector.Pass
import ControlPlane.Proofs.Entity.Survival

/-!
# The lives of nodes

A life is what happened to a node since it was registered, in order and with the times of the clock
at which its record was stamped for it (`Life`). It tells all there is to know of the node: what
each field of its record has to be is read off its life alone, without any store (`Life.node`).
-/

namespace ControlPlane

open Api (Command NodeForm NodePatch)
open Detector (verdict)

/-- The stamp of a change after one before: the time of the clock or, if that is not later, a
microsecond after the stamp before. -/
def Instant.following (previous now : Instant) : Instant :=
  if previous.before now then now else previous.moved microsecond

/-- The stamp of a change, where there is a later time. -/
theorem nextStamp_some (now previous : Instant) :
    nextStamp now (some previous) = .ok (previous.following now) ∨
      nextStamp now (some previous) = .error .noLaterTime := by
  unfold nextStamp Instant.following Instant.plus?
  dsimp only
  by_cases hb : previous.before now = true
  · rw [if_pos hb, if_pos hb]
    exact .inl rfl
  · rw [if_neg hb, if_neg hb]
    by_cases hr : (previous.moved Instant.microsecond).inRange = true
    · rw [if_pos hr]
      exact .inl rfl
    · rw [if_neg hr]
      exact .inr rfl

/-! ## Lives -/

/-- What is done to a node that is there: some of its fields are patched, its status is set by hand,
or it is asked for a heartbeat and by some time has answered or stayed silent. -/
inductive Deed where
  | patched (patch : NodePatch)
  | statusSet (status : NodeStatus)
  | answered (time : Instant)
  | silent (time : Instant) (grace : Nat)

/-- Whether the time of a deed has a property. -/
def Deed.Shows (P : Instant → Prop) : Deed → Prop
  | patched _ | statusSet _ => True
  | answered time | silent time _ => P time

theorem Deed.Shows.mono {P Q : Instant → Prop} {deed : Deed} (h : deed.Shows P)
    (hPQ : ∀ t, P t → Q t) : deed.Shows Q := by
  cases deed with
  | patched patch | statusSet status => trivial
  | answered time | silent time grace => exact hPQ time h

/-- The life of a node. -/
inductive Life where
  | registered (form : NodeForm) (now : Instant)
  | continued (earlier : Life) (now : Instant) (deed : Deed)

namespace Life

/-! ### Times -/

/-- When the node was registered. -/
def birth : Life → Instant
  | registered _ now => now
  | continued earlier _ _ => earlier.birth

/-- The stamp of what was done last. -/
def stamp : Life → Instant
  | registered _ now => now
  | continued earlier now _ => earlier.stamp.following now

/-- The last heartbeat: the time of an answer or, where this counts, the stamp of a status set by
hand. -/
def heartbeat (policy : StatusPolicy) : Life → Option Instant
  | registered _ _ => none
  | continued earlier now deed =>
    match deed with
    | .answered time => some time
    | .statusSet _ =>
      if policy = .refreshHeartbeat then some (earlier.stamp.following now)
      else earlier.heartbeat policy
    | .patched _ | .silent _ _ => earlier.heartbeat policy

/-- The last sign of life: the last heartbeat, and if there has been none, the registration. -/
def sign (policy : StatusPolicy) (life : Life) : Instant :=
  (life.heartbeat policy).getD life.birth

/-- When the node last did something: registered or answered. -/
def activity : Life → Instant
  | registered _ now => now
  | continued earlier _ deed =>
    match deed with
    | .answered time => time
    | .patched _ | .statusSet _ | .silent _ _ => earlier.activity

/-! ### Status and fields -/

/-- The status of the node: the one set last by hand or by the detector. -/
def status (policy : StatusPolicy) : Life → NodeStatus
  | registered _ _ => .unknown
  | continued earlier _ deed =>
    match deed with
    | .statusSet status => status
    | .answered _ => .online
    | .silent time grace => verdict (some (earlier.sign policy)) time grace
    | .patched _ => earlier.status policy

/-- The value of a field: the one in the latest patch that has one, or the first. -/
def latest {β : Type} (given : NodePatch → Option β) (first : NodeForm → β) : Life → β
  | registered form _ => first form
  | continued earlier _ deed =>
    match deed with
    | .patched patch => (given patch).getD (earlier.latest given first)
    | .statusSet _ | .answered _ | .silent _ _ => earlier.latest given first

/-- The declared hardware as it is kept: every time that the record is written and read its numbers
may change. -/
def hardware : Life → Capabilities
  | registered form _ => Capabilities.laws.settle form.capabilities
  | continued earlier _ deed =>
    Capabilities.laws.settle <|
      match deed with
      | .patched patch => patch.capabilities.getD earlier.hardware
      | .statusSet _ | .answered _ | .silent _ _ => earlier.hardware

/-- The record of the node. -/
def node (policy : StatusPolicy) (id : String) (life : Life) : Node where
  id := id
  name := life.latest (·.name) (·.name)
  ip := life.latest (·.ip) (·.ip)
  port := life.latest (·.port) (·.port)
  metadata := life.latest (·.metadata) (·.metadata)
  network := life.latest (·.network) (·.network)
  capabilities := life.hardware
  status := life.status policy
  assignedReplicas := life.latest (·.assignedReplicas) (·.assignedReplicas)
  registeredAt := some life.birth
  updatedAt := some life.stamp
  lastHeartbeat := life.heartbeat policy
  lastActivity := some life.activity

/-! ### Records after a deed -/

section Records

variable (policy : StatusPolicy) (id : String) (life : Life) (now time : Instant)

theorem node_registered (form : NodeForm) :
    (registered form now).node policy id =
      nodes.genuine.codec.settle ((form.node id).registered now) := by
  rw [Node.settle_eq]
  rfl

theorem node_patched (patch : NodePatch) :
    (continued life now (.patched patch)).node policy id =
      nodes.genuine.codec.settle (((patch.apply (life.node policy id)).inheriting
        (life.node policy id)).updated (life.stamp.following now)) := by
  have hh : (life.heartbeat policy <|> life.heartbeat policy) = life.heartbeat policy := by
    cases life.heartbeat policy <;> rfl
  rw [Node.settle_eq]
  show { (continued life now (.patched patch)).node policy id with
    lastHeartbeat := life.heartbeat policy } = _
  rw [← hh]
  rfl

theorem node_statusSet (status : NodeStatus) :
    (continued life now (.statusSet status)).node policy id =
      nodes.genuine.codec.settle
        ((life.node policy id).withStatus status policy (life.stamp.following now)) := by
  rw [Node.settle_eq]
  rfl

/-- A node that is asked is online or unknown, so it is online once it answered. -/
theorem node_answered (h : life.status policy ∈ Detector.probedStatuses) :
    (continued life now (.answered time)).node policy id =
      nodes.genuine.codec.settle
        ((life.node policy id).heard time (life.stamp.following now)) := by
  have hs : NodeStatus.online =
      if life.status policy = .unknown then .online else life.status policy := by
    revert h
    cases life.status policy <;> decide
  rw [Node.settle_eq]
  show { (continued life now (.answered time)).node policy id with status := .online } = _
  rw [hs]
  rfl

theorem node_silent (grace : Nat) :
    (continued life now (.silent time grace)).node policy id =
      nodes.genuine.codec.settle ((life.node policy id).unreachable
        (verdict (some (life.sign policy)) time grace) (life.stamp.following now)) := by
  rw [Node.settle_eq]
  rfl

theorem sign_statusSet (status : NodeStatus) :
    (continued life now (.statusSet status)).sign policy =
      if policy = .refreshHeartbeat then life.stamp.following now else life.sign policy := by
  show (if policy = .refreshHeartbeat then some (life.stamp.following now)
    else life.heartbeat policy).getD life.birth = _
  split <;> rfl

/-- The detector counts silence from the last sign of life. -/
theorem lastSeen_node : Detector.lastSeen (life.node policy id) = some (life.sign policy) := by
  show (life.heartbeat policy <|> some life.birth) = some ((life.heartbeat policy).getD life.birth)
  cases life.heartbeat policy <;> rfl

end Records

/-! ### Lives whose times have a property -/

/-- Whether all times of a life have a property. -/
structure Bears (P : Instant → Prop) (policy : StatusPolicy) (life : Life) : Prop where
  birth : P life.birth
  stamp : P life.stamp
  heartbeat : ∀ t, life.heartbeat policy = some t → P t
  activity : P life.activity

namespace Bears

variable {P : Instant → Prop} {policy : StatusPolicy} {life : Life} {now : Instant} {deed : Deed}

theorem registered (h : P now) (form : NodeForm) : (registered form now).Bears P policy :=
  ⟨h, h, nofun, h⟩

theorem continued (h : life.Bears P policy) (hd : deed.Shows P)
    (hs : P (life.stamp.following now)) : (continued life now deed).Bears P policy := by
  refine ⟨h.birth, hs, ?_, ?_⟩
  · intro t hb
    cases deed with
    | answered time => exact Option.some.inj hb ▸ hd
    | statusSet status =>
      have hb : (if policy = .refreshHeartbeat then some (life.stamp.following now)
        else life.heartbeat policy) = some t := hb
      by_cases hp : policy = .refreshHeartbeat
      · rw [if_pos hp] at hb
        exact Option.some.inj hb ▸ hs
      · rw [if_neg hp] at hb
        exact h.heartbeat t hb
    | patched patch | silent time grace => exact h.heartbeat t hb
  · cases deed with
    | answered time => exact hd
    | patched patch | statusSet status | silent time grace => exact h.activity

theorem sign (h : life.Bears P policy) : P (life.sign policy) := by
  unfold Life.sign
  cases hb : life.heartbeat policy with
  | none => exact h.birth
  | some t => exact h.heartbeat t hb

end Bears

end Life

end ControlPlane
