import ControlPlane.Api.Service
import ControlPlane.Proofs.Registry.NodeChange
import Std.Data.TreeMap

/-!
# The catalogue of models and replicas

What the API is to its callers as far as models and replicas go: two finite maps from ids to
records. A catalogue knows no keys, no bytes and no store, and it answers every request at once. Of
the requests about nodes it only notes the ids that they use up.
-/

namespace ControlPlane

open Api (Command Service Settings)

/-- The models and the replicas by id, and how many new ids were given out. -/
structure Catalogue where
  modelById : Std.TreeMap String Model
  replicaById : Std.TreeMap String Replica
  issued : Nat

namespace Catalogue

/-- The catalogue without records. -/
def empty : Catalogue := ⟨∅, ∅, 0⟩

/-! ## Answers -/

/-- An answer: a status and a document. -/
structure Answer where
  status : Nat
  body : Json

namespace Answer

/-- The response with an answer. -/
def response (a : Answer) : Http.Response :=
  ⟨a.status, some "application/json", none, a.body.toBytes⟩

/-- A record. -/
def one {α : Type} (c : Codec α) (a : α) : Answer :=
  ⟨200, c.write a⟩

/-- Records in the order of their ids. -/
def all {α : Type} (c : Codec α) (as : List α) : Answer :=
  ⟨200, .array (as.map c.write)⟩

/-- Something was changed. -/
def success : Answer :=
  ⟨200, .object [("success", .bool true)]⟩

/-- A record was added under an id. -/
def added (name id : String) : Answer :=
  ⟨200, .object [(name, .string id)]⟩

/-- The document of an error. -/
def problem (code message requestId : String) : Json :=
  .object [("error", .object
    [("code", .string code), ("message", .string message),
      ("request_id", .string ("req_" ++ requestId))])]

/-- There is no record with an id. -/
def notFound (kind id requestId : String) : Answer :=
  ⟨404, problem "not_found" (RegistryError.notFound kind id).message requestId⟩

/-- The record is to be stored under an id and carries another one. -/
def mismatch (kind id recordId requestId : String) : Answer :=
  ⟨400, problem "invalid_argument" (RegistryError.idMismatch kind id recordId).message requestId⟩

/-- An id that must not be empty is. -/
def noId (kind requestId : String) : Answer :=
  ⟨400, problem "invalid_argument" (RegistryError.emptyId kind).message requestId⟩

end Answer

/-! ## Records by id -/

section Records

variable {α : Type} (records : Std.TreeMap String α)

/-- The records in the order of their ids. -/
def values : List α :=
  records.toList.map (·.2)

/-- Answers with the record with an id. -/
def fetch (kind : String) (c : Codec α) (id requestId : String) : Answer :=
  match records[id]? with
  | some a => .one c a
  | none => .notFound kind id requestId

/-- Puts a record under an id, unless the record that was sent carries another one. -/
def store (kind id recordId : String) (a : α) (requestId : String) :
    Answer × Std.TreeMap String α :=
  if recordId = "" ∨ recordId = id then (.success, records.insert id a)
  else (.mismatch kind id recordId requestId, records)

end Records

/-- Answers with the replicas of a model, in the order of their ids. -/
def ofModel (replicas : Std.TreeMap String Replica) (modelId requestId : String) : Answer :=
  if modelId = "" then .noId "model" requestId
  else .all Replica.codec ((values replicas).filter fun r => r.modelId == modelId)

/-! ## Commands -/

/-- Obeys a command. A command about nodes gets no answer here. -/
def obey (ids : Nat → String) (requestId : String) (c : Catalogue) :
    Command → Option Answer × Catalogue
  | .addModel m =>
    let id := ids c.issued
    (some (.added "model_id" id),
      { c with modelById := c.modelById.insert id { m with id := id }, issued := c.issued + 1 })
  | .putModel id m =>
    let (answer, records) := store c.modelById "model" id m.id { m with id := id } requestId
    (some answer, { c with modelById := records })
  | .removeModel id => (some .success, { c with modelById := c.modelById.erase id })
  | .getModel id => (some (fetch c.modelById "model" Model.codec id requestId), c)
  | .listModels => (some (.all Model.codec (values c.modelById)), c)
  | .addReplica r =>
    let id := if r.id.isEmpty then ids c.issued else r.id
    let issued := if r.id.isEmpty then c.issued + 1 else c.issued
    (some (.added "replica_id" id),
      { c with replicaById := c.replicaById.insert id { r with id := id }, issued := issued })
  | .putReplica id r =>
    let (answer, records) := store c.replicaById "replica" id r.id { r with id := id } requestId
    (some answer, { c with replicaById := records })
  | .removeReplica id => (some .success, { c with replicaById := c.replicaById.erase id })
  | .getReplica id => (some (fetch c.replicaById "replica" Replica.codec id requestId), c)
  | .listReplicas none => (some (.all Replica.codec (values c.replicaById)), c)
  | .listReplicas (some modelId) => (some (ofModel c.replicaById modelId requestId), c)
  | .health => (some ⟨200, .object [("status", .string "ok")]⟩, c)
  | .registerNode _ => (none, { c with issued := c.issued + 1 })
  | .listNodes | .getNode _ | .patchNode _ _ | .setNodeStatus _ _ | .removeNode _ => (none, c)

/-! ## Calls -/

/-- A request to the service: when it comes, the number it is given, and what it asks. -/
structure Call where
  now : Instant
  requestId : String
  request : Http.Request

/-- Whether a call is about nodes. -/
def Call.aboutNodes (call : Call) : Bool :=
  match Command.ofRequest call.request with
  | .ok command => command.aboutNodes
  | .error _ => false

/-- Answers a call, unless it is about nodes. One that is not understood is refused, and who asks
for a head alone gets no body. -/
def respond (ids : Nat → String) (call : Call) (c : Catalogue) :
    Option Http.Response × Catalogue :=
  let (response, c) := match Command.ofRequest call.request with
    | .error why => ((Api.Reply.refused why).response? call.requestId, c)
    | .ok command =>
      let (answer, c) := c.obey ids call.requestId command
      (answer.map Answer.response, c)
  (if call.request.method = .head then response.map (·.withoutBody) else response, c)

/-- The responses to the calls that are not about nodes. -/
def responses (ids : Nat → String) : List Call → Catalogue → List Http.Response
  | [], _ => []
  | call :: rest, c =>
    let (response, c) := c.respond ids call
    response.toList ++ responses ids rest c

end Catalogue

/-- The responses of a service to the calls that are not about nodes, as far as there are any. -/
def Api.Service.responses (settings : Settings) :
    List Catalogue.Call → Service → List (Option Http.Response)
  | [], _ => []
  | call :: rest, s =>
    let (response, s) := s.respond settings call.now call.requestId call.request
    if call.aboutNodes then responses settings rest s else response :: responses settings rest s

end ControlPlane
