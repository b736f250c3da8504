import ControlPlane.Proofs.Registry.Node

/-!
# Entities: what survives writing and reading

A floating-point number survives if it is read where it was written (`Double.Survives`). A model or
a node whose numbers survive, and whose times are genuine, is kept as it is; so is every replica
with a genuine time, since it has no numbers that may change. Integers survive anyway.
-/

namespace ControlPlane

/-! ## Numbers -/

/-- Whether a floating-point number is read where it was written. -/
def Double.Survives (x : Double) : Prop :=
  Number.ofParts? (Number.parts (.real x)) = some (.real x)

theorem Double.Survives.reread_eq {x : Double} (h : x.Survives) :
    Number.reread (.real x) = .real x := by
  rw [Number.reread, h, Option.getD_some]

theorem Number.reread_integer {i : Int} (h : Number.Fits (.integer i)) :
    Number.reread (.integer i) = .integer i := by
  obtain ⟨m, hm, -, he⟩ := Number.ofParts?_parts h
  rw [Number.reread, hm, Option.getD_some, he i rfl]

/-! ## Documents -/

namespace Json

mutual

/-- Whether all floating-point numbers of a document survive. -/
def Survives : Json → Prop
  | .number (.real x) => x.Survives
  | .array items => SurvivesItems items
  | .object members => SurvivesMembers members
  | .null | .bool _ | .number (.integer _) | .string _ => True

/-- Whether all floating-point numbers of some documents survive. -/
def SurvivesItems : List Json → Prop
  | [] => True
  | j :: rest => j.Survives ∧ SurvivesItems rest

/-- Whether all floating-point numbers of some members survive. -/
def SurvivesMembers : List (String × Json) → Prop
  | [] => True
  | (_, j) :: rest => j.Survives ∧ SurvivesMembers rest

end

end Json

namespace Codec

mutual

/-- A document whose numbers survive is kept as it is. -/
theorem settleJson_eq : ∀ {room : Nat} {j : Json}, FitsJson room j → j.Survives →
    settleJson j = j
  | _, .null, _, _ | _, .bool _, _, _ | _, .string _, _, _ => by simp [settleJson]
  | _, .number (.integer i), hf, _ => by
    have hf : Number.Fits (.integer i) := by simpa [FitsJson] using hf
    rw [settleJson, Number.reread_integer hf]
  | _, .number (.real x), _, hs => by
    have hs : x.Survives := by simpa [Json.Survives] using hs
    rw [settleJson, hs.reread_eq]
  | room + 1, .array items, hf, hs => by
    have hs : Json.SurvivesItems items := by simpa [Json.Survives] using hs
    rw [settleJson, settleJsonItems_eq hf hs]
  | room + 1, .object members, hf, hs => by
    have hs : Json.SurvivesMembers members := by simpa [Json.Survives] using hs
    rw [settleJson, settleJsonMembers_eq hf.1 hs]
  | 0, .array _, hf, _ | 0, .object _, hf, _ => by simp [FitsJson] at hf

theorem settleJsonItems_eq : ∀ {room : Nat} {js : List Json}, FitsJsonItems room js →
    Json.SurvivesItems js → settleJsonItems js = js
  | _, [], _, _ => rfl
  | _, j :: rest, hf, hs => by
    rw [settleJsonItems, settleJson_eq hf.1 hs.1, settleJsonItems_eq hf.2 hs.2]

theorem settleJsonMembers_eq : ∀ {room : Nat} {ms : List (String × Json)},
    FitsJsonMembers room ms → Json.SurvivesMembers ms → settleJsonMembers ms = ms
  | _, [], _, _ => rfl
  | _, (name, j) :: rest, hf, hs => by
    rw [settleJsonMembers, settleJson_eq hf.1 hs.1, settleJsonMembers_eq hf.2 hs.2]

end

end Codec

/-! ## Models -/

theorem Model.settle_eq {m : Model} (hf : models.laws.Fits m) (hs : m.inputFormat.Survives) :
    models.laws.codec.settle m = m := by
  obtain ⟨-, -, -, -, -, -, -, -, hj, -⟩ := hf
  have hj : Codec.settleJson m.inputFormat = m.inputFormat := Codec.settleJson_eq hj hs
  show { m with inputFormat := Codec.settleJson m.inputFormat } = m
  rw [hj]

/-! ## Replicas -/

/-- A replica with a genuine time is kept as it is. -/
theorem Replica.settle_eq (r : Replica) : replicas.genuine.codec.settle r = r := by
  have hm : r.lastHeartbeat.map (fun t => t) = r.lastHeartbeat := Option.map_id'
  show { r with lastHeartbeat := r.lastHeartbeat.map fun t => t } = r
  rw [hm]

/-! ## Nodes -/

/-- Whether the numbers in declared hardware survive. -/
def Capabilities.Survives (c : Capabilities) : Prop :=
  ∀ d ∈ c.devices, d.tops.Survives

theorem Device.settle_eq {d : Device} (h : d.tops.Survives) : Device.laws.settle d = d := by
  have ht : Codec.asDouble (Number.reread (.real d.tops)) = d.tops := by
    rw [h.reread_eq]
    rfl
  have hw : d.powerDrawWatts.map (fun w => w) = d.powerDrawWatts := Option.map_id'
  show { d with
    tops := Codec.asDouble (Number.reread (.real d.tops))
    powerDrawWatts := d.powerDrawWatts.map fun w => w } = d
  rw [ht, hw]

/-- Hardware whose numbers survive is kept as it is. -/
theorem Capabilities.settle_eq {c : Capabilities} (h : c.Survives) :
    Capabilities.laws.settle c = c := by
  have hd : c.devices.map Device.laws.settle = c.devices := by
    rw [List.map_congr_left fun d hd => Device.settle_eq (h d hd), List.map_id']
  show { c with devices := c.devices.map Device.laws.settle } = c
  rw [hd]

/-- Whether a node has hardware that can be written and only genuine times. -/
structure Node.Genuine (n : Node) : Prop where
  capabilities : Capabilities.laws.Fits (Tree.depthLimit - 1) n.capabilities
  registeredAt : ∀ t, n.registeredAt = some t → t.Genuine
  updatedAt : ∀ t, n.updatedAt = some t → t.Genuine
  lastHeartbeat : ∀ t, n.lastHeartbeat = some t → t.Genuine
  lastActivity : ∀ t, n.lastActivity = some t → t.Genuine

theorem Node.Genuine.fits {n : Node} (h : n.Genuine) : nodes.genuine.Fits n := by
  have hroom : 1 ≤ Tree.depthLimit - 1 := by decide
  exact ⟨by decide, trivial, trivial, trivial, trivial,
    ⟨hroom, trivial, trivial, trivial, trivial, trivial⟩,
    ⟨hroom, trivial, trivial, trivial, trivial, trivial⟩, h.capabilities, trivial,
    ⟨hroom, fun _ _ => trivial⟩, h.registeredAt, h.updatedAt, h.lastHeartbeat, h.lastActivity,
    trivial⟩

/-- Of a node with genuine times nothing but its hardware may change. -/
theorem Node.settle_eq (n : Node) : nodes.genuine.codec.settle n =
    { n with capabilities := Capabilities.laws.settle n.capabilities } := by
  have hm : ∀ o : Option Instant, o.map (fun t => t) = o := fun _ => Option.map_id'
  have hl : n.assignedReplicas.map (fun s => s) = n.assignedReplicas := List.map_id' _
  show { n with
    capabilities := Capabilities.laws.settle n.capabilities
    assignedReplicas := n.assignedReplicas.map fun s => s
    registeredAt := n.registeredAt.map fun t => t
    updatedAt := n.updatedAt.map fun t => t
    lastHeartbeat := n.lastHeartbeat.map fun t => t
    lastActivity := n.lastActivity.map fun t => t } = _
  rw [hl, hm, hm, hm, hm]

end ControlPlane
