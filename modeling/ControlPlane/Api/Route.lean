import ControlPlane.Http.Message

/-!
# Routes

The paths of the API and the methods that each of them knows.
-/

namespace ControlPlane.Api

open Http (Method)

/-- A path of the API. Ids are as they are written in the path. -/
inductive Route where
  | health
  | nodes
  | node (id : String)
  | nodeStatus (id : String)
  | models
  | model (id : String)
  | replicas
  | replica (id : String)
  deriving DecidableEq, Repr

namespace Route

/-- The route that a path leads to. An id at its end must not be empty. -/
def ofPath? (path : String) : Option Route :=
  match Http.split '/' path with
  | ["", "api", "healthz"] => some .health
  | ["", "api", "nodes"] => some .nodes
  | ["", "api", "models"] => some .models
  | ["", "api", "replicas"] => some .replicas
  | ["", "api", "nodes", id] => if id.isEmpty then none else some (.node id)
  | ["", "api", "models", id] => if id.isEmpty then none else some (.model id)
  | ["", "api", "replicas", id] => if id.isEmpty then none else some (.replica id)
  | ["", "api", "nodes", id, "status"] => some (.nodeStatus id)
  | _ => none

/-- The methods that a route knows, in the order in which they are told. -/
def methods : Route → List Method
  | .health => [.get, .head]
  | .nodes | .models | .replicas => [.post, .get, .head]
  | .node _ => [.get, .head, .patch, .delete]
  | .nodeStatus _ => [.put]
  | .model _ | .replica _ => [.get, .head, .put, .delete]

end Route

end ControlPlane.Api
