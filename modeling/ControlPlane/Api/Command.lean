import ControlPlane.Api.Form
import ControlPlane.Api.Refusal
import ControlPlane.Api.Route

/-!
# Commands

What a request asks of the registries, once it is understood. A request is read from its front:
path, method, id, and then query or body (`Command.ofRequest`).
-/

namespace ControlPlane.Api

/-- Something asked of the registries. -/
inductive Command where
  | health
  | listNodes
  | getNode (id : String)
  | registerNode (form : NodeForm)
  | patchNode (id : String) (patch : NodePatch)
  | setNodeStatus (id : String) (status : NodeStatus)
  | removeNode (id : String)
  | listModels
  | getModel (id : String)
  | addModel (m : Model)
  | putModel (id : String) (m : Model)
  | removeModel (id : String)
  /-- All replicas, or those of one model. -/
  | listReplicas (modelId : Option String)
  | getReplica (id : String)
  | addReplica (r : Replica)
  | putReplica (id : String) (r : Replica)
  | removeReplica (id : String)

namespace Command

open Http (Request Method)

/-- What a method asks of a route, if it is one that the route knows. Where the content of a record
can be asked for, its length and type can be asked for alone, which is the same command. -/
def onRoute (r : Request) : Route → Except Refusal Command
  | .health =>
    match r.method with
    | .get | .head => return .health
    | _ => throw (.wrongMethod Route.health.methods)
  | .nodes =>
    match r.method with
    | .get | .head => return .listNodes
    | .post => return .registerNode (← readBody NodeForm.codec r)
    | _ => throw (.wrongMethod Route.nodes.methods)
  | .node id =>
    match r.method with
    | .get | .head => return .getNode (← readId id)
    | .patch => return .patchNode (← readId id) (← readBody NodePatch.codec r)
    | .delete => return .removeNode (← readId id)
    | _ => throw (.wrongMethod (Route.node id).methods)
  | .nodeStatus id =>
    match r.method with
    | .put => return .setNodeStatus (← readId id) (← readBody StatusForm.codec r).status
    | _ => throw (.wrongMethod (Route.nodeStatus id).methods)
  | .models =>
    match r.method with
    | .get | .head => return .listModels
    | .post => return .addModel (← readBody Model.codec r)
    | _ => throw (.wrongMethod Route.models.methods)
  | .model id =>
    match r.method with
    | .get | .head => return .getModel (← readId id)
    | .put => return .putModel (← readId id) (← readBody Model.codec r)
    | .delete => return .removeModel (← readId id)
    | _ => throw (.wrongMethod (Route.model id).methods)
  | .replicas =>
    match r.method with
    | .get | .head => return .listReplicas (← readParameter "model_id" r)
    | .post => return .addReplica (← readBody Replica.codec r)
    | _ => throw (.wrongMethod Route.replicas.methods)
  | .replica id =>
    match r.method with
    | .get | .head => return .getReplica (← readId id)
    | .put => return .putReplica (← readId id) (← readBody Replica.codec r)
    | .delete => return .removeReplica (← readId id)
    | _ => throw (.wrongMethod (Route.replica id).methods)

/-- What a request asks for. -/
def ofRequest (r : Request) : Except Refusal Command :=
  match Route.ofPath? r.path with
  | some route => onRoute r route
  | none => .error .unknownPath

end Command

end ControlPlane.Api
