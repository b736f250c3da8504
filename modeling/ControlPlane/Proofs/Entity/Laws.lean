import ControlPlane.Api.Form
import ControlPlane.Entity.Model
import ControlPlane.Entity.Node
import ControlPlane.Entity.Replica
import ControlPlane.Proofs.Json.Record
import ControlPlane.Proofs.Number.Scientific
import ControlPlane.Proofs.Time.Genuine

/-!
# Entities: what is written is read

The laws of the records that are kept and of the forms that are sent. A value of any of them that
was read can be written and is read again; only its floating-point numbers and its instants may
change on the way, and never its id.
-/

namespace ControlPlane

theorem Codec.write_record_ne_null {α ρ σ : Type} {name : String} {fs : Fields ρ σ}
    {ofTuple : ρ → α} {toTuple : α → ρ} (a : α) :
    (Codec.record name fs ofTuple toTuple).write a ≠ .null := by
  simp [Codec.record]

theorem Codec.write_instant_ne_null (t : Instant) : Codec.instant.write t ≠ .null := by
  simp [Codec.instant]

/-! ## Hardware -/

def MemoryKind.laws : MemoryKind.codec.Laws :=
  .enumeration fun k => by cases k <;> rfl

def Memory.laws : Memory.codec.Laws :=
  .record (.cons (.required .u64) <| .cons (.required .u64) <| .cons (.required .u64) <|
    .cons (.orElse MemoryKind.laws fun _ _ => trivial) .nil) (by decide) fun _ => rfl

def Storage.laws : Storage.codec.Laws :=
  .record (.cons (.required .u64) <| .cons (.required .u64) <| .cons (.required .u64) <|
    .cons (.orElse .u64 fun _ _ => trivial) <| .cons (.orElse .u64 fun _ _ => trivial) .nil)
    (by decide) fun _ => rfl

def DeviceKind.laws : DeviceKind.codec.Laws :=
  .enumeration fun k => by cases k <;> rfl

def Device.laws : Device.codec.Laws :=
  .record (.cons (.required DeviceKind.laws) <| .cons (.orElse .string fun _ _ => trivial) <|
    .cons (.orElse .string fun _ _ => trivial) <| .cons (.orElse .u64 fun _ _ => trivial) <|
    .cons (.orElse .u32 fun _ _ => trivial) <|
    .cons (.orElse .double fun _ _ => Double.finite_zero false) <|
    .cons (.optional .u32 Codec.write_bounded_ne_null) <|
    .cons (.orElse .bool fun _ _ => trivial) .nil) (by decide) fun _ => rfl

def Capabilities.laws : Capabilities.codec.Laws :=
  .record (.cons (.orElse Memory.laws fun _ h =>
      ⟨h, trivial, trivial, trivial, trivial, trivial⟩) <|
    .cons (.orElse Storage.laws fun _ h =>
      ⟨h, trivial, trivial, trivial, trivial, trivial, trivial⟩) <|
    .cons (.orElse (.list Device.laws) fun _ h =>
      Codec.Laws.fits_nil _ ((Nat.le_add_left 1 _).trans h)) .nil)
    (by decide) fun _ => rfl

/-! ## Nodes -/

def NodeStatus.laws : NodeStatus.codec.Laws :=
  .enumeration fun s => by cases s <;> rfl

def Metadata.laws : Metadata.codec.Laws :=
  .record (.cons (.orElse .string fun _ _ => trivial) <|
    .cons (.orElse .string fun _ _ => trivial) <| .cons (.orElse .string fun _ _ => trivial) <|
    .cons (.orElse .string fun _ _ => trivial) .nil) (by decide) fun _ => rfl

def Network.laws : Network.codec.Laws :=
  .record (.cons (.orElse .string fun _ _ => trivial) <| .cons (.orElse .u64 fun _ _ => trivial) <|
    .cons (.orElse .bool fun _ _ => trivial) <| .cons (.orElse .u32 fun _ _ => trivial) .nil)
    (by decide) fun _ => rfl

theorem Metadata.fits_default {room : Nat} (h : Metadata.laws.need ≤ room) :
    Metadata.laws.Fits room {} :=
  ⟨h, trivial, trivial, trivial, trivial, trivial⟩

theorem Network.fits_default {room : Nat} (h : Network.laws.need ≤ room) :
    Network.laws.Fits room {} :=
  ⟨h, trivial, trivial, trivial, trivial, trivial⟩

theorem Capabilities.fits_default {room : Nat} (h : Capabilities.laws.need ≤ room) :
    Capabilities.laws.Fits room {} := by
  have hr : 3 ≤ room := h
  have hm : 1 ≤ room - 1 := by omega
  exact ⟨by omega, ⟨hm, trivial, trivial, trivial, trivial, trivial⟩,
    ⟨hm, trivial, trivial, trivial, trivial, trivial, trivial⟩, Codec.Laws.fits_nil _ hm, trivial⟩

/-- The laws of nodes, by those of their times. -/
def Node.lawsWith (times : Codec.instant.Laws) : Node.codec.Laws :=
  .record (.cons (.orElse .string fun _ _ => trivial) <| .cons (.required .string) <|
    .cons (.required .string) <| .cons (.required .u16) <|
    .cons (.orElse Metadata.laws fun _ h => Metadata.fits_default h) <|
    .cons (.orElse Network.laws fun _ h => Network.fits_default h) <|
    .cons (.orElse Capabilities.laws fun _ h => Capabilities.fits_default h) <|
    .cons (.orElse NodeStatus.laws fun _ _ => trivial) <|
    .cons (.orElse (.list .string) fun _ h => Codec.Laws.fits_nil _ h) <|
    .cons (.optional times Codec.write_instant_ne_null) <|
    .cons (.optional times Codec.write_instant_ne_null) <|
    .cons (.optional times Codec.write_instant_ne_null) <|
    .cons (.optional times Codec.write_instant_ne_null) .nil) (by decide) fun _ => rfl

/-- Nodes with times that the calendar has. -/
def Node.laws : Node.codec.Laws := lawsWith .instant

/-- Nodes with genuine times. -/
def Node.genuineLaws : Node.codec.Laws := lawsWith .genuineInstant

/-! ## Models and replicas -/

def ModelKind.laws : ModelKind.codec.Laws :=
  .enumeration fun k => by cases k <;> rfl

def Model.laws : Model.codec.Laws :=
  .record (.cons (.orElse .string fun _ _ => trivial) <| .cons (.required .string) <|
    .cons (.orElse .string fun _ _ => trivial) <| .cons (.orElse .string fun _ _ => trivial) <|
    .cons (.required ModelKind.laws) <| .cons (.orElse .u64 fun _ _ => trivial) <|
    .cons (.orElse .u32 fun _ _ => trivial) <|
    .cons (.orElse .json fun _ _ => by simp [Codec.Laws.json, Codec.FitsJson]) .nil)
    (by decide) fun _ => rfl

def ReplicaStatus.laws : ReplicaStatus.codec.Laws :=
  .enumeration fun s => by cases s <;> rfl

/-- The laws of replicas, by those of their times. -/
def Replica.lawsWith (times : Codec.instant.Laws) : Replica.codec.Laws :=
  .record (.cons (.orElse .string fun _ _ => trivial) <| .cons (.required .string) <|
    .cons (.orElse .string fun _ _ => trivial) <|
    .cons (.orElse ReplicaStatus.laws fun _ _ => trivial) <|
    .cons (.orElse .i32 fun _ _ => trivial) <| .cons (.orElse .string fun _ _ => trivial) <|
    .cons (.optional times Codec.write_instant_ne_null) .nil) (by decide) fun _ => rfl

/-- Replicas with times that the calendar has. -/
def Replica.laws : Replica.codec.Laws := lawsWith .instant

/-- Replicas with genuine times. -/
def Replica.genuineLaws : Replica.codec.Laws := lawsWith .genuineInstant

end ControlPlane
