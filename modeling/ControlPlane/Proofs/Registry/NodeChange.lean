import ControlPlane.Api.Decision
import ControlPlane.Proofs.Except
import ControlPlane.Proofs.Registry.Shows
import ControlPlane.Registry.Node

/-!
# Nodes: what the operations come to

The changes that the operations on nodes decide on, in a store that shows the nodes of a map. Each
writes or deletes the record of one node (`Api.Command.decide_onNodes`), and the record that is
written is the one shown before with the new values (`Node.setStatus_eq` and those beside it).
-/

namespace ControlPlane

namespace Registry

variable {α : Type} (r : Registry α)

theorem put_yields (id : String) (a : α) : (r.put id a).Yields fun c => c.key = r.key id :=
  .bind .any fun _ _ => .pure rfl

theorem remove_yields (id : String) : (r.remove id).Yields fun c => c.key = r.key id :=
  .bind .any fun _ _ => .pure rfl

end Registry

/-! ## Operations -/

namespace Node

variable {f : String → Option Node} {s : Store} {id : String} {n : Node}

theorem register_eq (hid : id ≠ "") (hn : n.id = "" ∨ n.id = id) (now : Instant) :
    register now id n = .ok (nodes.write id (registered { n with id := id } now)) := by
  unfold register
  rw [Registry.stamp_of_matching hid hn]
  rfl

/-- A node that is there is replaced by one with its id. -/
theorem update_of_get {older : Node} (hid : id ≠ "") (hn : n.id = id)
    (hget : nodes.get s id = .ok (some older)) (now : Instant) :
    update s now id n =
      (nextStamp now older.updatedAt).map fun t =>
        nodes.write id ((n.inheriting older).updated t) := by
  unfold update
  rw [Registry.stamp_of_matching hid (.inr hn), hget]
  show (nextStamp now older.updatedAt >>= fun stamp => _) = _
  subst hn
  cases nextStamp now older.updatedAt <;> rfl

theorem setStatus_eq (h : nodes.Shows s.data f) (hs : s.Plain) (hn : f id = some n)
    (now : Instant) (policy : StatusPolicy) (status : NodeStatus) :
    setStatus s now policy id status =
      (nextStamp now n.updatedAt).map fun t => nodes.write id (n.withStatus status policy t) := by
  unfold setStatus
  rw [h.require_of_some hs hn]
  show (nextStamp now n.updatedAt >>= fun stamp => _) = _
  cases nextStamp now n.updatedAt <;> rfl

theorem markUnreachable_eq (h : nodes.Shows s.data f) (hs : s.Plain) (hn : f id = some n)
    (now : Instant) (status : NodeStatus) :
    markUnreachable s now id status =
      (nextStamp now n.updatedAt).map fun t => nodes.write id (n.unreachable status t) := by
  unfold markUnreachable
  rw [h.require_of_some hs hn]
  show (nextStamp now n.updatedAt >>= fun stamp => _) = _
  cases nextStamp now n.updatedAt <;> rfl

theorem recordHeartbeat_eq (h : nodes.Shows s.data f) (hs : s.Plain) (hn : f id = some n)
    (now time : Instant) :
    recordHeartbeat s now id time =
      (nextStamp now n.updatedAt).map fun t =>
        (nodes.write id (n.heard time t), (n.heard time t).status) := by
  unfold recordHeartbeat
  rw [h.require_of_some hs hn]
  show (nextStamp now n.updatedAt >>= fun stamp => _) = _
  cases nextStamp now n.updatedAt <;> rfl

end Node

/-! ## Commands -/

namespace Api

/-- Whether a command is about nodes. -/
def Command.aboutNodes : Command → Bool
  | .listNodes | .getNode _ | .registerNode _ | .patchNode _ _ | .setNodeStatus _ _
  | .removeNode _ => true
  | _ => false

/-- A patch is made to the node that is shown. -/
theorem applyPatch_eq {f : String → Option Node} {s : Store} {id : String} {n : Node}
    (h : nodes.Shows s.data f) (hs : s.Plain) (hn : f id = some n) (now : Instant)
    (patch : NodePatch) :
    applyPatch s now id patch =
      (nextStamp now n.updatedAt).map fun t =>
        nodes.write id (((patch.apply n).inheriting n).updated t) := by
  unfold applyPatch finishPatch
  rw [h.require_of_some hs hn]
  obtain ⟨hid, hown⟩ := h.own id n hn
  have hget : nodes.get s id = .ok (some n) := by rw [h.get hs hid, hn]
  exact Node.update_of_get hid (show (patch.apply n).id = id from hown) hget now

/-- Whether a decision is an answer or a change of the record of a model or a replica. -/
def Decision.OffNodes : Decision → Prop
  | .tell _ => True
  | .make c _ _ => (∃ id, c.key = models.key id) ∨ ∃ id, c.key = replicas.key id

/-- Whether a decision is an answer or a change of the record of a node that gets no new id. -/
def Decision.OnNodes : Decision → Prop
  | .tell _ => True
  | .make c _ named => named = false ∧ ∃ id, c.key = nodes.key id

namespace Command

/-- Every command about nodes but a registration comes to an answer or to a change of a node. -/
theorem decide_onNodes {command : Command} (hc : command.aboutNodes = true)
    (hr : ∀ form, command ≠ .registerNode form) (policy : StatusPolicy) (now : Instant)
    (fresh : String) (s : Store) :
    (command.decide policy now fresh s).Yields Decision.OnNodes := by
  have write : ∀ id n, ∃ id', (nodes.write id n).key = nodes.key id' := fun id n => ⟨id, rfl⟩
  cases command with
  | listNodes | getNode id => exact .bind .any fun _ _ => .pure trivial
  | registerNode form => exact absurd rfl (hr form)
  | patchNode id patch =>
    have hpatch : (applyPatch s now id patch).Yields fun c => ∃ id, c.key = nodes.key id := by
      refine .bind .any fun read _ => .bind .any fun n _ => .bind .any fun older _ => ?_
      cases older with
      | none => exact .pure (write _ _)
      | some older => exact .bind .any fun stamp _ => .pure (write _ _)
    exact hpatch.bind fun c hc => .pure ⟨rfl, hc⟩
  | setNodeStatus id status =>
    have hset : (Node.setStatus s now policy id status).Yields fun c =>
        ∃ id, c.key = nodes.key id :=
      .bind .any fun n _ => .bind .any fun stamp _ => .pure (write _ _)
    exact hset.bind fun c hc => .pure ⟨rfl, hc⟩
  | removeNode id =>
    exact (nodes.remove_yields id).bind fun c hc => .pure ⟨rfl, id, hc⟩
  | _ => cases hc

/-- No other command changes the record of a node. -/
theorem decide_offNodes {command : Command} (hc : command.aboutNodes = false)
    (policy : StatusPolicy) (now : Instant) (fresh : String) (s : Store) :
    (command.decide policy now fresh s).Yields Decision.OffNodes := by
  cases command with
  | health => exact .pure trivial
  | listModels | getModel id | getReplica id => exact .bind .any fun _ _ => .pure trivial
  | listReplicas modelId => cases modelId <;> exact .bind .any fun _ _ => .pure trivial
  | addModel m => exact (models.put_yields _ _).bind fun _ hc => .pure (.inl ⟨_, hc⟩)
  | putModel id m => exact (models.put_yields _ _).bind fun _ hc => .pure (.inl ⟨_, hc⟩)
  | removeModel id => exact (models.remove_yields _).bind fun _ hc => .pure (.inl ⟨_, hc⟩)
  | addReplica r => exact (replicas.put_yields _ _).bind fun _ hc => .pure (.inr ⟨_, hc⟩)
  | putReplica id r => exact (replicas.put_yields _ _).bind fun _ hc => .pure (.inr ⟨_, hc⟩)
  | removeReplica id => exact (replicas.remove_yields _).bind fun _ hc => .pure (.inr ⟨_, hc⟩)
  | _ => cases hc

/-- A node is registered under the new id. -/
theorem decide_registerNode {fresh : String} (hfresh : fresh ≠ "") (policy : StatusPolicy)
    (now : Instant) (s : Store) (form : NodeForm) :
    (registerNode form).decide policy now fresh s =
      .ok (.make (nodes.write fresh ((form.node fresh).registered now))
        (Decision.newId "node_id" fresh) true) := by
  show (do return Decision.make (← Node.register now fresh (form.node fresh)) _ true) = _
  rw [Node.register_eq hfresh (.inr rfl)]
  rfl

end Command

end Api

end ControlPlane
