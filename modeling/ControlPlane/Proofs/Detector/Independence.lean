import ControlPlane.Proofs.Detector.Stamps

/-!
# Nodes do not influence each other

What a pass touches when a node was asked depends on what came of asking that node alone. So what
came of asking one node leaves no trace but in its record and in those of the replicas assigned to
it, and as long as nodes share no replicas it does not matter in which order they are asked
(`Detector.pass_independent`).
-/

namespace ControlPlane.Detector

variable {b : Backing} {now : Readings} {key : String} {ns ns' : List Node} {grace : Nat}
  {outcome outcome' : Node → Except ProbeError HeartbeatResponse}

/-! ## Other outcomes -/

/-- The touches of a key are the same if the nodes that touch it fare the same. -/
theorem on_passTouches_congr (h : ∀ n ∈ ns, outcome n = outcome' n ∨
      key ≠ nodes.key n.id ∧ ∀ id ∈ n.assignedReplicas, key ≠ replicas.key id) :
    Touch.on key (passTouches grace now outcome ns) =
      Touch.on key (passTouches grace now outcome' ns) := by
  rw [on_passTouches, on_passTouches]
  refine List.flatMap_congr fun n hn => ?_
  rcases h n hn with hsame | ⟨hnode, hreplicas⟩
  · rw [hsame]
  · rw [on_touches hnode hreplicas, on_touches hnode hreplicas]

/-! ## Another order -/

/-- Whether no replica is assigned to both of two nodes. -/
def ApartReplicas (n k : Node) : Prop :=
  ∀ id ∈ n.assignedReplicas, id ∉ k.assignedReplicas

/-- Of two nodes that share neither id nor replicas only one touches a key. -/
theorem on_touches_apart {n k : Node} (hid : n.id ≠ k.id) (hr : ApartReplicas n k) :
    Touch.on key (touches grace now n (outcome n)) = [] ∨
      Touch.on key (touches grace now k (outcome k)) = [] := by
  by_cases hnode : key = nodes.key n.id
  · subst hnode
    exact .inr (on_touches_node hid)
  by_cases hreplica : ∃ id ∈ n.assignedReplicas, key = replicas.key id
  · obtain ⟨id, hassigned, rfl⟩ := hreplica
    refine .inr (on_touches (Registry.nodes_apart_replicas.symm id k.id) ?_)
    rintro id' hassigned' he
    obtain rfl := Registry.key_inj he
    exact hr id hassigned hassigned'
  · exact .inl (on_touches hnode fun id hassigned he => hreplica ⟨id, hassigned, he⟩)

/-- The touches of a key are the same in whatever order nodes are asked that share neither ids nor
replicas. -/
theorem on_passTouches_perm (hp : ns.Perm ns') (hids : (ns.map Node.id).Nodup)
    (hr : ns.Pairwise ApartReplicas) : Touch.on key (passTouches grace now outcome ns) =
      Touch.on key (passTouches grace now outcome ns') := by
  rw [on_passTouches, on_passTouches]
  refine flatMap_eq_of_perm hp ?_
  exact ((List.pairwise_map.1 hids).and hr).imp fun h => on_touches_apart h.1 h.2

/-- On a store that works and whose nodes can be read, two passes that differ in what comes of
asking one node agree on every other node, on every model and on every replica that is not assigned
to that node. If no replica is assigned to two of the nodes that are asked, asking them in another
order comes to the same map. -/
theorem pass_independent (hw : b.Works) (hnodes : nodes.Keeps (Node.Lasts 1) b.store)
    (hnow : now.Both Instant.Genuine) (grace : Nat)
    (outcome : Node → Except ProbeError HeartbeatResponse) :
    ∃ ns o, nodesWithStatus b.store probedStatuses = .ok ns ∧
      pass (askEach outcome) grace ⟨b, now, ()⟩ = .ok o ∧ o.ending = .finished ∧
      (∀ a outcome', (∀ n : Node, n.id ≠ a → outcome' n = outcome n) →
        ∃ o', pass (askEach outcome') grace ⟨b, now, ()⟩ = .ok o' ∧ o'.ending = .finished ∧
          (∀ id, id ≠ a → o'.scene.backing.store.get? (nodes.key id) =
            o.scene.backing.store.get? (nodes.key id)) ∧
          (∀ id, o'.scene.backing.store.get? (models.key id) =
            o.scene.backing.store.get? (models.key id)) ∧
          ∀ id, (∀ n, nodes.get b.store a = .ok (some n) → id ∉ n.assignedReplicas) →
            o'.scene.backing.store.get? (replicas.key id) =
              o.scene.backing.store.get? (replicas.key id)) ∧
      (ns.Pairwise ApartReplicas → ∀ ns', ns.Perm ns' →
        let o' := visit (askEach outcome) grace ns' ⟨b, now, ()⟩
        o'.ending = .finished ∧ o'.scene.backing.store.data = o.scene.backing.store.data) := by
  obtain ⟨ns, hns, hsorted, hmem⟩ := probed_spec hnodes hw.plain
  have hids := nodup_of_sorted hsorted
  obtain ⟨o, hpass, hending, hw₁, ht₁⟩ := pass_touched hw hnodes hnow grace outcome hns hids
  refine ⟨ns, o, hns, hpass, hending, ?_, ?_⟩
  · intro a outcome' hsame
    obtain ⟨o', hpass', hending', hw₂, ht₂⟩ := pass_touched hw hnodes hnow grace outcome' hns hids
    -- The two stores agree on what the one node does not touch.
    have agree : ∀ key, (∀ n ∈ ns, n.id = a →
        key ≠ nodes.key n.id ∧ ∀ id ∈ n.assignedReplicas, key ≠ replicas.key id) →
        o'.scene.backing.store.get? key = o.scene.backing.store.get? key := by
      intro key hkey
      rw [hw₁.plain.get?, hw₂.plain.get?]
      refine ht₂.get?_congr ht₁ (on_passTouches_congr fun n hn => ?_)
      by_cases hid : n.id = a
      · exact .inr (hkey n hn hid)
      · exact .inl (hsame n hid)
    refine ⟨o', hpass', hending', ?_, ?_, ?_⟩
    · intro id hid
      refine agree _ fun n _ ha => ⟨fun he => hid ?_, fun id' _ =>
        Registry.nodes_apart_replicas id id'⟩
      exact (Registry.key_inj he).trans ha
    · intro id
      exact agree _ fun n _ _ => ⟨Registry.nodes_apart_models.symm id n.id, fun id' _ =>
        Registry.models_apart_replicas id id'⟩
    · intro id hassigned
      refine agree _ fun n hn ha => ⟨Registry.nodes_apart_replicas.symm id n.id, ?_⟩
      rintro id' hid' he
      obtain rfl := Registry.key_inj he
      obtain ⟨hfinds, -⟩ := (hmem n).1 hn
      obtain ⟨hne, -, -⟩ := hnodes.of_finds hfinds
      subst ha
      exact hassigned n ((Registry.get_some_iff hw.plain).2 ⟨hne, hfinds⟩) hid'
  · intro happart ns' hp
    obtain ⟨hending', -, ht'⟩ := visit_touched hw hnodes hnow grace outcome
      ((hp.map Node.id).nodup_iff.1 hids)
    exact ⟨hending', ht'.unique ht₁ fun key => (on_passTouches_perm hp hids happart).symm⟩

/-- A store with one more node, which no replica is assigned to. -/
def duo : Backing :=
  ⟨.volatile ⟨(nodes.write "m" { Operation.bareNode with id := "m" }).apply solo.store.data,
    false⟩, {}⟩

/-- Whether the other node answers does not matter to the node and its replica. -/
theorem pass_independent_duo : ∃ o o',
    pass (askEach fun _ => .ok ⟨"n", true, []⟩) 0 ⟨duo, soloReadings, ()⟩ = .ok o ∧
    pass (askEach fun n => if n.id = "m" then .error (.noAddress "m") else .ok ⟨"n", true, []⟩) 0
      ⟨duo, soloReadings, ()⟩ = .ok o' ∧
    o'.scene.backing.store.get? (nodes.key "n") = o.scene.backing.store.get? (nodes.key "n") ∧
    o'.scene.backing.store.get? (replicas.key "r") =
      o.scene.backing.store.get? (replicas.key "r") := by
  let m : Node := { Operation.bareNode with id := "m" }
  have hw : duo.Works := ⟨trivial, rfl⟩
  have hfits : m.Fits := { Operation.fits_bareNode with }
  have hshows : nodes.Shows duo.store.data _ :=
    solo_shows_nodes.write nodes.laws (Node.fits_iff.2 hfits) (show "m" ≠ "" by decide) rfl
  have hkeeps : nodes.Keeps (Node.Lasts 1) duo.store := by
    refine hshows.keeps fun id n hn => ?_
    by_cases hm : id = "m"
    · subst hm
      rw [Function.update_self] at hn
      obtain rfl := Option.some.inj hn
      intro t ht
      cases ht
    · rw [Function.update_of_ne hm] at hn
      exact (solo_lasts id n hn).mono (Nat.le_refl 1)
  obtain ⟨-, o, -, ho, -, hothers, -⟩ := pass_independent hw hkeeps soloReadings_genuine 0
    fun _ => .ok ⟨"n", true, []⟩
  obtain ⟨o', ho', -, hnode, -, hreplica⟩ := hothers "m"
    (fun n => if n.id = "m" then .error (.noAddress "m") else .ok ⟨"n", true, []⟩)
    fun n hn => if_neg hn
  refine ⟨o, o', ho, ho', hnode "n" (by decide), hreplica "r" ?_⟩
  intro n hn
  rw [hshows.get hw.plain (by decide), Function.update_self] at hn
  obtain rfl := Option.some.inj (Except.ok.inj hn)
  decide

end ControlPlane.Detector
