import ControlPlane.Json.Record

/-!
# Models

The models whose replicas run on the nodes of the cluster.
-/

namespace ControlPlane

/-- The kind of a model. -/
inductive ModelKind where
  | visionTransformer
  | cnn
  | mlp
  | largeLanguageModel
  | decisionTree
  | linear
  deriving DecidableEq, Repr

/-- The kinds of models by name. -/
def ModelKind.names : List (String × ModelKind) :=
  [("vision_transformer", .visionTransformer), ("cnn", .cnn), ("mlp", .mlp),
    ("large_language_model", .largeLanguageModel), ("decision_tree", .decisionTree),
    ("linear", .linear)]

/-- The name of a kind of model. -/
def ModelKind.name : ModelKind → String
  | .visionTransformer => "vision_transformer"
  | .cnn => "cnn"
  | .mlp => "mlp"
  | .largeLanguageModel => "large_language_model"
  | .decisionTree => "decision_tree"
  | .linear => "linear"

/-- Kinds of models as text. -/
def ModelKind.codec : Codec ModelKind :=
  .enumeration names name

/-- A model. `replicas` is how many of it are wanted, and `inputFormat` is a description of its
input that only its users understand. -/
structure Model where
  id : String := ""
  name : String
  version : String := ""
  filePath : String := ""
  kind : ModelKind
  size : UInt64 := 0
  replicas : UInt32 := 0
  inputFormat : Json := .null
  deriving Repr

/-- Models as text. -/
def Model.codec : Codec Model :=
  .record "ModelInfo"
    (.cons (.orElse "id" "" .string) <| .cons (.required "name" .string) <|
      .cons (.orElse "version" "" .string) <| .cons (.orElse "file_path" "" .string) <|
      .cons (.required "model_type" ModelKind.codec) <| .cons (.orElse "model_size" 0 .u64) <|
      .cons (.orElse "replicas" 0 .u32) <| .cons (.orElse "input_format" .null .json) .nil)
    (fun (id, name, version, filePath, kind, size, replicas, inputFormat, ()) =>
      ⟨id, name, version, filePath, kind, size, replicas, inputFormat⟩)
    (fun m => (m.id, m.name, m.version, m.filePath, m.kind, m.size, m.replicas, m.inputFormat, ()))

end ControlPlane
