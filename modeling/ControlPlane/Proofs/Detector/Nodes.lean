import ControlPlane.Proofs.Detector.Stamps

/-!
# What a pass makes of nodes

A pass adds no key and takes none away. It leaves everything alone but the nodes that it asks and
their replicas, and of a node that it asks it changes the status and the stamp and, if the node
answered, the times of its signs of life (`Node.Asked`, `Detector.pass_nodes`).
-/

namespace ControlPlane

open Detector (probedStatuses verdict)

/-- What a node that was asked is after the pass, compared with what it was before. `time` is when
it was known what came of asking it. -/
structure Node.Asked (outcome : Except ProbeError HeartbeatResponse) (time : Instant)
    (n n' : Node) : Prop where
  stamped : ∃ stamp, n'.updatedAt = some stamp ∧ ∀ t, n.updatedAt = some t → t.before stamp = true
  /-- What is neither status nor time stays, as long as the fractional numbers survive. -/
  others : n.capabilities.Survives → n' = { n with
    status := n'.status
    updatedAt := n'.updatedAt
    lastHeartbeat := n'.lastHeartbeat
    lastActivity := n'.lastActivity }
  answered : ∀ r, outcome = .ok r →
    n'.status = .online ∧ n'.lastHeartbeat = some time ∧ n'.lastActivity = some time
  silent : ∀ e, outcome = .error e → (n'.status = .unknown ∨ n'.status = .offline) ∧
    n'.lastHeartbeat = n.lastHeartbeat ∧ n'.lastActivity = n.lastActivity

namespace Detector

variable {b : Backing} {now : Readings} {n : Node} {id key : String} {ns : List Node}
  {grace : Nat} {outcome : Node → Except ProbeError HeartbeatResponse}

/-! ## The record of a node that was asked -/

/-- A node with the note on what came of asking it. -/
theorem asked_noteOf {now time stamp : Instant} (hn : n.status ∈ probedStatuses)
    (hstamp : nextStamp now n.updatedAt = .ok stamp) (grace : Nat)
    (outcome : Except ProbeError HeartbeatResponse) :
    Node.Asked outcome time n
      (nodes.genuine.codec.settle (noteOf grace time n outcome n stamp)) := by
  have hlater : ∀ t, n.updatedAt = some t → t.before stamp = true := by
    intro t ht
    rw [ht] at hstamp
    exact nextStamp_later hstamp
  rw [Node.settle_eq]
  cases outcome with
  | ok r =>
    refine ⟨⟨stamp, rfl, hlater⟩, ?_, ?_, nofun⟩
    · intro hc
      show { n.heard time stamp with capabilities := Capabilities.laws.settle n.capabilities } = _
      rw [Capabilities.settle_eq hc]
      rfl
    · rintro r' -
      refine ⟨?_, rfl, rfl⟩
      show (if n.status = .unknown then .online else n.status) = NodeStatus.online
      revert hn
      cases n.status <;> decide
  | error e =>
    refine ⟨⟨stamp, rfl, hlater⟩, ?_, nofun, ?_⟩
    · intro hc
      show { n.unreachable (verdict (lastSeen n) time grace) stamp with
        capabilities := Capabilities.laws.settle n.capabilities } = _
      rw [Capabilities.settle_eq hc]
      rfl
    · rintro e' -
      exact ⟨verdict_cases (lastSeen n) time grace, rfl, rfl⟩

/-- A node whose stamp leaves room for another gets the note when it is touched. -/
theorem finds_nodeTouch {m m' : KeyMap} (hn : nodes.Finds m n.id n) (hid : n.id ≠ "")
    (hasked : n.status ∈ probedStatuses) (hl : n.Lasts 1) (hnow : now.Both Instant.Genuine)
    (grace : Nat) (outcome : Except ProbeError HeartbeatResponse)
    (hm : m'.get? (nodes.key n.id) =
      (m.get? (nodes.key n.id)).map (nodeTouch grace now n outcome).change) :
    ∃ n', nodes.Finds m' n.id n' ∧ Node.Asked outcome now.ended n n' := by
  obtain ⟨bs, hbs, hd⟩ := hn
  obtain ⟨stamp, hstamp, -⟩ := exists_nextStamp (k := 0) Instant.lasts_zero hl
  have hnote := stamps_noteOf (n := n) hnow.ended grace outcome
  refine ⟨_, ⟨_, ?_, hnote.ofBytes_touch hnow.stamping hid hd hstamp⟩,
    asked_noteOf hasked hstamp grace outcome⟩
  rw [hm, hbs]
  rfl

/-! ## What is left alone -/

/-- What is neither a node that is asked nor a replica is not touched. -/
theorem on_passTouches_elsewhere (hn : ∀ n ∈ ns, key ≠ nodes.key n.id)
    (hr : ∀ id, key ≠ replicas.key id) :
    Touch.on key (passTouches grace now outcome ns) = [] :=
  on_passTouches_eq_nil fun n hmem => on_touches (hn n hmem) fun id _ => hr id

/-- A key that does not begin like those of a registry is none of them. -/
theorem ne_key_of_not_beginsWith {α : Type} {r : Registry α}
    (h : KeyMap.beginsWith r.keyStart key = false) (id : String) : key ≠ r.key id := by
  rintro rfl
  rw [r.beginsWith_key] at h
  cases h

/-- On a store that works and whose nodes can be read, a pass keeps the keys. It leaves alone every
node that is offline or in error, every model and whatever is neither a node nor a replica. A node
that is asked gets a later stamp and is online after an answer and unknown or offline without one;
of the rest only the times of its signs of life change, and only after an answer. -/
theorem pass_nodes (hw : b.Works) (hnodes : nodes.Keeps (Node.Lasts 1) b.store)
    (hnow : now.Both Instant.Genuine) (grace : Nat)
    (outcome : Node → Except ProbeError HeartbeatResponse) :
    ∃ o, pass (askEach outcome) grace ⟨b, now, ()⟩ = .ok o ∧ o.ending = .finished ∧
      o.scene.backing.store.keys = b.store.keys ∧
      (∀ id n, nodes.get b.store id = .ok (some n) → n.status = .offline ∨ n.status = .error →
        o.scene.backing.store.get? (nodes.key id) = b.store.get? (nodes.key id)) ∧
      (∀ id, o.scene.backing.store.get? (models.key id) = b.store.get? (models.key id)) ∧
      (∀ key, KeyMap.beginsWith nodes.keyStart key = false →
        KeyMap.beginsWith replicas.keyStart key = false →
        o.scene.backing.store.get? key = b.store.get? key) ∧
      ∀ id n, nodes.get b.store id = .ok (some n) →
        n.status = .online ∨ n.status = .unknown →
        ∃ n', nodes.get o.scene.backing.store id = .ok (some n') ∧
          Node.Asked (outcome n) now.ended n n' := by
  obtain ⟨ns, hns, hsorted, hmem⟩ := probed_spec hnodes hw.plain
  have hids := nodup_of_sorted hsorted
  obtain ⟨o, hpass, hending, hw', ht⟩ := pass_touched hw hnodes hnow grace outcome hns hids
  have kept : ∀ key, Touch.on key (passTouches grace now outcome ns) = [] →
      o.scene.backing.store.get? key = b.store.get? key := by
    intro key hkey
    rw [hw'.plain.get?, hw.plain.get?]
    exact ht.get?_eq hkey
  refine ⟨o, hpass, hending, ht.keys_eq, ?_, ?_, ?_, ?_⟩
  · intro id n hn hstatus
    obtain ⟨-, hn⟩ := (Registry.get_some_iff hw.plain).1 hn
    refine kept _ (on_passTouches_elsewhere ?_ fun id' => Registry.nodes_apart_replicas id id')
    intro k hk he
    obtain ⟨hfinds, hasked⟩ := (hmem k).1 hk
    obtain rfl := Registry.key_inj he
    obtain rfl := hn.unique hfinds
    rcases hstatus with h | h <;> rw [h] at hasked <;> revert hasked <;> decide
  · intro id
    exact kept _ (on_passTouches_elsewhere (fun n _ => Registry.nodes_apart_models.symm id n.id)
      fun id' => Registry.models_apart_replicas id id')
  · intro key hn hr
    exact kept _ (on_passTouches_elsewhere (fun n _ => ne_key_of_not_beginsWith hn n.id)
      (ne_key_of_not_beginsWith hr))
  · intro id n hn hstatus
    obtain ⟨hid, hn⟩ := (Registry.get_some_iff hw.plain).1 hn
    obtain ⟨-, rfl, hl⟩ := hnodes.of_finds hn
    have hasked : n.status ∈ probedStatuses := by
      rcases hstatus with h | h <;> rw [h] <;> decide
    have hone := ht (nodes.key n.id)
    rw [on_passTouches_node hids ((hmem n).2 ⟨hn, hasked⟩)] at hone
    obtain ⟨n', hn', hafter⟩ := finds_nodeTouch hn hid hasked hl hnow grace (outcome n) hone
    exact ⟨n', (Registry.get_some_iff hw'.plain).2 ⟨hid, hn'⟩, hafter⟩

/-- A node that answers is online after the pass with a later stamp, and its silence is counted from
the answer on, though the clock has gone on by the time of the stamp. -/
theorem pass_nodes_answered : ∃ o n' stamp,
    pass (askEach fun n => .ok ⟨n.id, true, []⟩) 0 ⟨solo, soloReadings, ()⟩ = .ok o ∧
    nodes.get o.scene.backing.store "n" = .ok (some n') ∧ n'.status = .online ∧
    n'.updatedAt = some stamp ∧ (⟨0, 0⟩ : Instant).before stamp = true ∧
    lastSeen n' = some ⟨1, 0⟩ := by
  obtain ⟨o, hpass, -, -, -, -, -, hasked⟩ := pass_nodes solo_works solo_keeps_nodes
    soloReadings_genuine 0 fun n => .ok ⟨n.id, true, []⟩
  obtain ⟨n', hn', hafter⟩ := hasked "n" soloNode solo_get_node (by decide)
  obtain ⟨stamp, hstamp, hlater⟩ := hafter.stamped
  obtain ⟨honline, hheartbeat, -⟩ := hafter.answered _ rfl
  refine ⟨o, n', stamp, hpass, hn', honline, hstamp, hlater _ rfl, ?_⟩
  rw [lastSeen, hheartbeat]
  rfl

end Detector

end ControlPlane
