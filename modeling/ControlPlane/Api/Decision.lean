import ControlPlane.Api.Command
import ControlPlane.Registry.Node

/-!
# Decisions

What a command comes to, given what is in the store: an answer, or one change and the answer to give
once it is made. Nothing is changed while this is decided, so a command that fails on the way leaves
no trace.
-/

namespace ControlPlane.Api

/-- What a command comes to. -/
inductive Decision where
  /-- An answer alone. -/
  | tell (body : Json)
  /-- A change, and the answer for when it is made. `named` says that the record got a new id. -/
  | make (c : Change) (body : Json) (named : Bool)

namespace Decision

/-! ## Answers -/

/-- The answer that something is done. -/
def success : Json :=
  .object [("success", .bool true)]

/-- The answer with the id of a new record. -/
def newId (name id : String) : Json :=
  .object [(name, .string id)]

/-- Makes a change and answers that it is done. -/
def done (c : Change) : Decision :=
  .make c success false

/-- Answers with a record. -/
def tellOne {α : Type} (r : Registry α) (a : α) : Decision :=
  .tell (r.codec.write a)

/-- Answers with records. -/
def tellAll {α : Type} (r : Registry α) (as : List α) : Decision :=
  .tell (.array (as.map r.codec.write))

end Decision

/-! ## Changing some fields of a node -/

/-- Replaces the record of a node by a patched form of one that was read before. Meanwhile the
record may have been changed. -/
def finishPatch (s : Store) (now : Instant) (id : String) (patch : NodePatch) (read : Node) :
    Except RegistryError Change :=
  Node.update s now id (patch.apply read)

/-- Gives new values to some fields of a node. -/
def applyPatch (s : Store) (now : Instant) (id : String) (patch : NodePatch) :
    Except RegistryError Change := do
  let read ← nodes.require s id
  finishPatch s now id patch read

/-! ## All commands -/

open Decision

/-- What a command comes to. `fresh` is the id for a new record that has none. -/
def Command.decide (policy : StatusPolicy) (now : Instant) (fresh : String) (s : Store) :
    Command → Except RegistryError Decision
  | .health => return .tell (.object [("status", .string "ok")])
  | .listNodes => return tellAll nodes (← nodes.list s)
  | .getNode id => return tellOne nodes (← nodes.require s id)
  | .registerNode form =>
    return .make (← Node.register now fresh (form.node fresh)) (newId "node_id" fresh) true
  | .patchNode id patch => return done (← applyPatch s now id patch)
  | .setNodeStatus id status => return done (← Node.setStatus s now policy id status)
  | .removeNode id => return done (← nodes.remove id)
  | .listModels => return tellAll models (← models.list s)
  | .getModel id => return tellOne models (← models.require s id)
  | .addModel m =>
    return .make (← models.put fresh { m with id := fresh }) (newId "model_id" fresh) true
  | .putModel id m => return done (← models.put id m)
  | .removeModel id => return done (← models.remove id)
  | .listReplicas none => return tellAll replicas (← replicas.list s)
  | .listReplicas (some modelId) => return tellAll replicas (← replicasOfModel s modelId)
  | .getReplica id => return tellOne replicas (← replicas.require s id)
  | .addReplica r =>
    let id := if r.id.isEmpty then fresh else r.id
    return .make (← replicas.put id r) (newId "replica_id" id) r.id.isEmpty
  | .putReplica id r => return done (← replicas.put id r)
  | .removeReplica id => return done (← replicas.remove id)

end ControlPlane.Api
