import ControlPlane.Entity.Heartbeat
import ControlPlane.Proofs.Entity.Survival

/-!
# Entities: the normal form of a text

A text may leave members out, hold unknown ones, or spell strings and times in many ways. Reading it
and writing what was read brings it into normal form, which is read as the same value and does not
change any more (`Codec.Stable`). That is so for nodes, models, replicas and both sides of a
heartbeat (`entities_stable`).
-/

namespace ControlPlane

namespace Codec

variable {α : Type} {c : Codec α} {Sound Kept : α → Prop}

/-- The normal form of a text: what is written of the value that it is read as. -/
def normal? (c : Codec α) (bs : Bytes) : Except Fault Bytes :=
  c.toBytes <$> c.ofBytes bs

/-- Whether normal forms are stable. `Sound` says what all values that are read have in common, and
`Kept` that the floating-point numbers of a value are read where they were written. -/
structure Stable (c : Codec α) (Sound Kept : α → Prop) : Prop where
  sound : ∀ bs a, c.ofBytes bs = .ok a → Sound a
  reread : ∀ a, Sound a → Kept a → c.ofBytes (c.toBytes a) = .ok a
  normal : ∀ bs a, c.ofBytes bs = .ok a → Kept a → c.normal? bs = .ok (c.toBytes a) ∧
    c.ofBytes (c.toBytes a) = .ok a ∧ c.normal? (c.toBytes a) = .ok (c.toBytes a)

theorem normal?_eq_ok {bs : Bytes} {a : α} (h : c.ofBytes bs = .ok a) :
    c.normal? bs = .ok (c.toBytes a) :=
  Except.map_eq_ok.2 ⟨a, h, rfl⟩

/-- Normal forms are stable if writing and reading keeps all values that are read. -/
theorem Laws.stable (l : c.Laws) (hn : l.need ≤ Tree.depthLimit)
    (hsound : ∀ a, l.Fits Tree.depthLimit a ↔ Sound a)
    (hsettle : ∀ a, Sound a → Kept a → l.settle a = a) : c.Stable Sound Kept := by
  have hfits : ∀ bs a, c.ofBytes bs = .ok a → Sound a := by
    intro bs a h
    exact (hsound a).1 (l.fits_of_readText hn h)
  have hreread : ∀ a, Sound a → Kept a → c.ofBytes (c.toBytes a) = .ok a := by
    intro a ha hk
    rw [l.ofBytes_toBytes ((hsound a).2 ha), hsettle a ha hk]
  refine ⟨hfits, hreread, ?_⟩
  intro bs a h hk
  have hagain := hreread a (hfits bs a h) hk
  exact ⟨normal?_eq_ok h, hagain, normal?_eq_ok hagain⟩

end Codec

/-! ## Nodes, models and replicas -/

theorem Node.fits_genuine_iff {n : Node} : nodes.genuine.Fits n ↔ n.Genuine := by
  refine ⟨?_, Genuine.fits⟩
  rintro ⟨-, -, -, -, -, -, -, hc, -, -, hr, hu, hh, ha, -⟩
  exact ⟨hc, hr, hu, hh, ha⟩

theorem Node.stable : Node.codec.Stable Genuine fun n => n.capabilities.Survives := by
  refine nodes.genuine.codec.stable nodes.genuine.need_le (fun n => fits_genuine_iff) ?_
  intro n _ hn
  rw [Node.settle_eq, Capabilities.settle_eq hn]

/-- A model needs nothing but a description of its input that can be read. -/
theorem Model.fits_iff {m : Model} :
    models.laws.Fits m ↔ Codec.FitsJson (Tree.depthLimit - 1) m.inputFormat := by
  constructor
  · rintro ⟨-, -, -, -, -, -, -, -, hj, -⟩
    exact hj
  · intro hj
    exact ⟨by decide, trivial, trivial, trivial, trivial, trivial, trivial, trivial, hj, trivial⟩

theorem Model.stable : Model.codec.Stable
    (fun m => Codec.FitsJson (Tree.depthLimit - 1) m.inputFormat)
    fun m => m.inputFormat.Survives := by
  refine models.laws.codec.stable models.laws.need_le (fun m => fits_iff) ?_
  intro m hm hs
  exact Model.settle_eq (Model.fits_iff.2 hm) hs

/-- A replica needs nothing but a genuine time. -/
theorem Replica.fits_genuine_iff {r : Replica} :
    replicas.genuine.Fits r ↔ ∀ t, r.lastHeartbeat = some t → t.Genuine := by
  constructor
  · rintro ⟨-, -, -, -, -, -, -, hh, -⟩
    exact hh
  · intro hh
    exact ⟨by decide, trivial, trivial, trivial, trivial, trivial, trivial, hh, trivial⟩

theorem Replica.stable : Replica.codec.Stable
    (fun r => ∀ t, r.lastHeartbeat = some t → t.Genuine) fun _ => True := by
  refine replicas.genuine.codec.stable replicas.genuine.need_le (fun r => fits_genuine_iff) ?_
  intro r _ _
  exact r.settle_eq

/-! ## Heartbeats -/

def HeartbeatRequest.laws : HeartbeatRequest.codec.Laws :=
  .record (.cons (.required .string) .nil) (by decide) fun _ => rfl

def ReplicaReport.laws : ReplicaReport.codec.Laws :=
  .record (.cons (.required .string) <| .cons (.required .string) <|
    .cons (.required .string) <| .cons (.required .string) <| .cons (.required .string) <|
    .cons (.required .i32) <| .cons (.required .string) .nil) (by decide) fun _ => rfl

def HeartbeatResponse.laws : HeartbeatResponse.codec.Laws :=
  .record (.cons (.required .string) <| .cons (.required .bool) <|
    .cons (.orElse (.list ReplicaReport.laws) fun _ h =>
      Codec.Laws.fits_nil _ ((Nat.le_add_left 1 _).trans h)) .nil) (by decide) fun _ => rfl

theorem HeartbeatRequest.stable :
    HeartbeatRequest.codec.Stable (fun _ => True) fun _ => True := by
  refine laws.stable (by decide) (fun r => ?_) fun r _ _ => rfl
  exact iff_of_true ⟨by decide, trivial, trivial⟩ trivial

theorem HeartbeatResponse.stable :
    HeartbeatResponse.codec.Stable (fun _ => True) fun _ => True := by
  refine laws.stable (by decide) (fun r => ?_) ?_
  · have hreport : ∀ report ∈ r.replicas, ReplicaReport.laws.Fits (Tree.depthLimit - 2) report :=
      fun report _ => ⟨by decide, trivial, trivial, trivial, trivial, trivial, trivial, trivial,
        trivial⟩
    exact iff_of_true ⟨by decide, trivial, trivial, ⟨by decide, hreport⟩, trivial⟩ trivial
  · intro r _ _
    have hreplicas : r.replicas.map (fun report => report) = r.replicas := List.map_id' _
    show { r with replicas := r.replicas.map fun report => report } = r
    rw [hreplicas]

/-! ## All entities -/

/-- Whatever text an entity is read from: the text that is written of it is read as the same entity
and written as the same text again. All times of the calendar, all integers of a field, all strings
and all documents that are read at all are kept so, and floating-point numbers if they survive. -/
theorem entities_stable :
    Node.codec.Stable Node.Genuine (fun n => n.capabilities.Survives) ∧
    Model.codec.Stable (fun m => Codec.FitsJson (Tree.depthLimit - 1) m.inputFormat)
      (fun m => m.inputFormat.Survives) ∧
    Replica.codec.Stable (fun r => ∀ t, r.lastHeartbeat = some t → t.Genuine) (fun _ => True) ∧
    HeartbeatRequest.codec.Stable (fun _ => True) (fun _ => True) ∧
    HeartbeatResponse.codec.Stable (fun _ => True) (fun _ => True) :=
  ⟨Node.stable, Model.stable, Replica.stable, HeartbeatRequest.stable, HeartbeatResponse.stable⟩

/-- A replica as a text with an escape, an unknown member and a time of another zone. -/
def looseReplica : Bytes :=
  utf8
    "\x7b\"model_id\":\"\\u0041\",\"x\":[],\"last_heartbeat\":\"2024-01-01T01:00:00.5+01:00\"\x7d"

set_option maxRecDepth 10000 in
/-- The replica of the text is written with its time in universal time and its escape resolved. That
text is written again as it is. -/
theorem entities_stable_replica : ∃ r, Replica.codec.ofBytes looseReplica = .ok r ∧
    r.lastHeartbeat = some ⟨63871286400, 500000000⟩ ∧
    Replica.codec.normal? looseReplica = .ok (Replica.codec.toBytes r) ∧
    Replica.codec.normal? (Replica.codec.toBytes r) = .ok (Replica.codec.toBytes r) := by
  have hread : Replica.codec.ofBytes looseReplica =
      .ok { modelId := "A", lastHeartbeat := some ⟨63871286400, 500000000⟩ } := by
    decide +kernel
  obtain ⟨hnormal, -, hagain⟩ := entities_stable.2.2.1.normal _ _ hread trivial
  exact ⟨_, hread, rfl, hnormal, hagain⟩

end ControlPlane
