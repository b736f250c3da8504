import ControlPlane.Entity.Model
import ControlPlane.Entity.Node
import ControlPlane.Entity.Replica
import ControlPlane.Registry.Basic

/-!
# The three registries

Nodes, models and replicas.
-/

namespace ControlPlane

/-- The registry of nodes. -/
def nodes : Registry Node where
  kind := "node"
  codec := Node.codec
  idOf := Node.id
  withId id n := { n with id := id }

/-- The registry of models. -/
def models : Registry Model where
  kind := "model"
  codec := Model.codec
  idOf := Model.id
  withId id m := { m with id := id }

/-- The registry of replicas. -/
def replicas : Registry Replica where
  kind := "replica"
  codec := Replica.codec
  idOf := Replica.id
  withId id r := { r with id := id }

/-- The nodes with one of the given states, in the order of their ids. -/
def nodesWithStatus (s : Store) (statuses : List NodeStatus) :
    Except RegistryError (List Node) := do
  let ns ← nodes.list s
  return ns.filter fun n => statuses.contains n.status

/-- The replicas of a model, in the order of their ids. -/
def replicasOfModel (s : Store) (modelId : String) : Except RegistryError (List Replica) := do
  models.requireId modelId
  let rs ← replicas.list s
  return rs.filter fun r => r.modelId == modelId

end ControlPlane
