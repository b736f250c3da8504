import ControlPlane.Entity.Heartbeat
import ControlPlane.Proofs.Registry.Laws
import ControlPlane.Registry.Node

/-!
# The three registries: records that can be read again

What a record needs so that it can be written and read again (`Node.Fits`, `Replica.Fits`,
`Model.Fits`), and that every operation on a node keeps it.
-/

namespace ControlPlane

/-! ## Optional times -/

/-- Whether a time, if there is one, lies within the years of the calendar. -/
def Instant.OptionInRange (o : Option Instant) : Prop :=
  ∀ t, o = some t → t.inRange = true

namespace Instant

variable {o o' : Option Instant} {t : Instant}

theorem optionInRange_none : OptionInRange none := by
  intro t ht
  cases ht

theorem optionInRange_some (h : t.inRange = true) : OptionInRange (some t) := by
  intro u hu
  obtain rfl := Option.some.inj hu
  exact h

theorem OptionInRange.getD (ho : OptionInRange o) (ht : t.inRange = true) :
    OptionInRange (some (o.getD t)) := by
  cases o with
  | none => exact optionInRange_some ht
  | some u => exact ho

theorem OptionInRange.orElse (ho : OptionInRange o) (ho' : OptionInRange o') :
    OptionInRange (o <|> o') := by
  cases o with
  | none => exact ho'
  | some u => exact ho

end Instant

/-! ## Nodes -/

/-- The laws of the registry of nodes, by those of their times. -/
def nodes.lawsWith (times : Codec.instant.Laws)
    (h : (Node.lawsWith times).need ≤ Tree.depthLimit) : nodes.Laws where
  codec := Node.lawsWith times
  need_le := h
  idOf_settle _ := rfl
  idOf_withId _ _ := rfl
  fits_withId h := h

/-- The laws of the registry of nodes. -/
def nodes.laws : nodes.Laws := nodes.lawsWith .instant (by decide)

/-- The laws of the registry of nodes for those with genuine times. -/
def nodes.genuine : nodes.Laws := nodes.lawsWith .genuineInstant (by decide)

namespace Node

/-- What a node needs to be written and read again. -/
structure Fits (n : Node) : Prop where
  capabilities : Capabilities.laws.Fits (Tree.depthLimit - 1) n.capabilities
  registeredAt : Instant.OptionInRange n.registeredAt
  updatedAt : Instant.OptionInRange n.updatedAt
  lastHeartbeat : Instant.OptionInRange n.lastHeartbeat
  lastActivity : Instant.OptionInRange n.lastActivity

theorem fits_iff {n : Node} : nodes.laws.Fits n ↔ n.Fits := by
  constructor
  · rintro ⟨-, -, -, -, -, -, -, hc, -, -, hr, hu, hh, ha, -⟩
    exact ⟨hc, hr, hu, hh, ha⟩
  · intro h
    have hroom : 1 ≤ Tree.depthLimit - 1 := by decide
    exact ⟨by decide, trivial, trivial, trivial, trivial,
      ⟨hroom, trivial, trivial, trivial, trivial, trivial⟩,
      ⟨hroom, trivial, trivial, trivial, trivial, trivial⟩, h.capabilities, trivial,
      ⟨hroom, fun _ _ => trivial⟩, h.registeredAt, h.updatedAt, h.lastHeartbeat, h.lastActivity,
      trivial⟩

variable {n older : Node} {now stamp : Instant}

theorem Fits.registered (h : n.Fits) (hn : now.inRange = true) : (n.registered now).Fits where
  capabilities := h.capabilities
  registeredAt := h.registeredAt.getD hn
  updatedAt := Instant.optionInRange_some hn
  lastHeartbeat := h.lastHeartbeat
  lastActivity := Instant.optionInRange_some hn

theorem Fits.inheriting (h : n.Fits) (ho : older.Fits) : (n.inheriting older).Fits where
  capabilities := h.capabilities
  registeredAt := h.registeredAt.orElse ho.registeredAt
  updatedAt := h.updatedAt
  lastHeartbeat := h.lastHeartbeat.orElse ho.lastHeartbeat
  lastActivity := h.lastActivity.orElse ho.lastActivity

theorem Fits.updated (h : n.Fits) (hs : stamp.inRange = true) : (n.updated stamp).Fits where
  capabilities := h.capabilities
  registeredAt := h.registeredAt.getD hs
  updatedAt := Instant.optionInRange_some hs
  lastHeartbeat := h.lastHeartbeat
  lastActivity := h.lastActivity.getD hs

theorem Fits.withStatus (h : n.Fits) (hs : stamp.inRange = true) (status : NodeStatus)
    (policy : StatusPolicy) : (n.withStatus status policy stamp).Fits where
  capabilities := h.capabilities
  registeredAt := h.registeredAt
  updatedAt := Instant.optionInRange_some hs
  lastHeartbeat := by
    show Instant.OptionInRange (if policy = .refreshHeartbeat then some stamp else n.lastHeartbeat)
    split
    · exact Instant.optionInRange_some hs
    · exact h.lastHeartbeat
  lastActivity := h.lastActivity.getD hs

theorem Fits.unreachable (h : n.Fits) (hs : stamp.inRange = true) (status : NodeStatus) :
    (n.unreachable status stamp).Fits :=
  { h with updatedAt := Instant.optionInRange_some hs }

theorem Fits.heard (h : n.Fits) (hn : now.inRange = true) (hs : stamp.inRange = true) :
    (n.heard now stamp).Fits where
  capabilities := h.capabilities
  registeredAt := h.registeredAt
  updatedAt := Instant.optionInRange_some hs
  lastHeartbeat := Instant.optionInRange_some hn
  lastActivity := Instant.optionInRange_some hn

end Node

/-! ## Models and replicas -/

/-- The laws of the registry of models. -/
def models.laws : models.Laws where
  codec := Model.laws
  need_le := by decide
  idOf_settle _ := rfl
  idOf_withId _ _ := rfl
  fits_withId h := h

/-- The laws of the registry of replicas, by those of their times. -/
def replicas.lawsWith (times : Codec.instant.Laws)
    (h : (Replica.lawsWith times).need ≤ Tree.depthLimit) : replicas.Laws where
  codec := Replica.lawsWith times
  need_le := h
  idOf_settle _ := rfl
  idOf_withId _ _ := rfl
  fits_withId h := h

/-- The laws of the registry of replicas. -/
def replicas.laws : replicas.Laws := replicas.lawsWith .instant (by decide)

/-- The laws of the registry of replicas for those with genuine times. -/
def replicas.genuine : replicas.Laws := replicas.lawsWith .genuineInstant (by decide)

/-- A replica needs nothing but a readable time. -/
theorem Replica.fits_iff {r : Replica} :
    replicas.laws.Fits r ↔ Instant.OptionInRange r.lastHeartbeat := by
  constructor
  · rintro ⟨-, -, -, -, -, -, -, hh, -⟩
    exact hh
  · intro h
    exact ⟨by decide, trivial, trivial, trivial, trivial, trivial, trivial, h, trivial⟩

theorem Replica.fits_observed (r : Replica) (report : Option ReplicaReport) {now : Instant}
    (hn : now.inRange = true) : replicas.laws.Fits (r.observed report now) := by
  rw [Replica.fits_iff]
  cases report <;> exact Instant.optionInRange_some hn

end ControlPlane
