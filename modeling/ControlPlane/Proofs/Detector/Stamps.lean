import ControlPlane.Proofs.Detector.Touches

/-!
# Passes that find room for their stamps

A pass stamps the record of a node once for every time that it asks one with its id. As long as the
stamps that are stored leave room for that (`Detector.StampsLast`), no step of the pass is its end
(`Detector.onOutcome_went`) and there is room for the nodes still to be asked
(`Detector.StampsLast.onOutcome`). So a pass whose clock and store nothing else touches comes to its
end, and undergoes what dealing with each node brings (`Detector.pass_touched`).
-/

namespace ControlPlane

/-! ## Notes with genuine times -/

/-- A record of a node that is read has genuine times. -/
theorem Node.genuine_of_ofBytes {bs : Bytes} {n : Node} (h : nodes.codec.ofBytes bs = .ok n) :
    n.Genuine := by
  obtain ⟨-, -, -, -, -, -, -, hc, -, -, hr, hu, hh, ha, -⟩ := nodes.genuine.fits_of_ofBytes h
  exact ⟨hc, hr, hu, hh, ha⟩

namespace Note

variable {note : Note} {now stamp : Instant} {id : String} {n : Node} {bs : Bytes}

/-- Whether a note stamps a node, and with genuine times. -/
structure Stamps (note : Note) : Prop where
  stamped : ∀ n stamp, (note n stamp).updatedAt = some stamp
  genuine : ∀ n stamp, n.Genuine → stamp.Genuine → (note n stamp).Genuine

theorem stamps_answer (hnow : now.Genuine) : (answer now).Stamps where
  stamped _ _ := rfl
  genuine _ _ hn hstamp :=
    { capabilities := hn.capabilities
      registeredAt := hn.registeredAt
      updatedAt := fun _ ht => Option.some.inj ht ▸ hstamp
      lastHeartbeat := fun _ ht => Option.some.inj ht ▸ hnow
      lastActivity := fun _ ht => Option.some.inj ht ▸ hnow }

theorem stamps_silence (status : NodeStatus) : (silence status).Stamps where
  stamped _ _ := rfl
  genuine _ _ hn hstamp := { hn with updatedAt := fun _ ht => Option.some.inj ht ▸ hstamp }

/-- The record of a node with a note, as it is read again. -/
theorem Stamps.ofBytes_touch (h : note.Stamps) (hnow : now.Genuine) (hid : id ≠ "")
    (hbs : nodes.codec.ofBytes bs = .ok n) (hstamp : nextStamp now n.updatedAt = .ok stamp) :
    nodes.codec.ofBytes ((nodes.touch id (note.revise now)).change bs) =
      .ok (nodes.genuine.codec.settle (note n stamp)) := by
  have hn := Node.genuine_of_ofBytes hbs
  have hrevise : note.revise now n = .ok (note n stamp) := by
    rw [revise, hstamp]
    rfl
  rw [Registry.touch_change_of_ok hid hbs hrevise]
  have hgenuine := genuine_nextStamp hnow hn.updatedAt hstamp
  exact nodes.genuine.codec.ofBytes_toBytes (h.genuine n stamp hn hgenuine).fits

/-- A touch notes something in a record or leaves it as it is. -/
theorem Stamps.ofBytes_touch_cases (h : note.Stamps) (hnow : now.Genuine) (id : String)
    (bs : Bytes) :
    (nodes.touch id (note.revise now)).change bs = bs ∨
      ∃ n stamp, nodes.codec.ofBytes bs = .ok n ∧ nextStamp now n.updatedAt = .ok stamp ∧
        nodes.codec.ofBytes ((nodes.touch id (note.revise now)).change bs) =
          .ok (nodes.genuine.codec.settle (note n stamp)) := by
  cases hr : nodes.revise? id (note.revise now) bs with
  | none => exact .inl (Registry.touch_change_of_none hr)
  | some a =>
    obtain ⟨hid, n, hbs, hrevise⟩ := Registry.revise?_eq_some.1 hr
    obtain ⟨stamp, hstamp, -⟩ := Except.map_eq_ok.1 hrevise
    exact .inr ⟨n, stamp, hbs, hstamp, h.ofBytes_touch hnow hid hbs hstamp⟩

/-- The stamp of a record with a note. -/
theorem Stamps.updatedAt_settle (h : note.Stamps) (n : Node) (stamp : Instant) :
    (nodes.genuine.codec.settle (note n stamp)).updatedAt = some stamp := by
  rw [Node.settle_eq]
  exact h.stamped n stamp

end Note

/-! ## Decisions that end no pass -/

namespace Detector

variable {b : Backing} {now : Readings} {n : Node} {id : String} {ids : List String}
  {m : KeyMap}

/-- Noting something finds a later time if there is one after the stamp that is found. -/
theorem revise_ne_noLaterTime {β : Type} {now : Instant} (note : Note) (g : Node → Change × β)
    (hs : b.store.Plain) (h : ∀ k, nodes.Finds b.store.data id k →
      ∃ stamp, nextStamp now k.updatedAt = .ok stamp) :
    (nodes.require b.store id >>= note.revise now).map g ≠ .error .noLaterTime := by
  cases hr : nodes.require b.store id with
  | error e =>
    intro he
    have hne := nodes.require_ne_noLaterTime b.store id
    rw [hr] at hne
    exact hne (congrArg Except.error (Except.error.inj he))
  | ok k =>
    obtain ⟨stamp, hstamp⟩ := h k ((Registry.require_eq_ok hs).1 hr).2
    show ((nextStamp now k.updatedAt).map (note k)).map g ≠ _
    rw [hstamp]
    nofun

theorem noteHeartbeat_went (hs : b.store.Plain) (h : ∀ k, nodes.Finds b.store.data n.id k →
    ∃ stamp, nextStamp now.stamping k.updatedAt = .ok stamp) :
    (noteHeartbeat n now b).stopped = false := by
  have hne := Backing.perform_ne_noLaterTime (b := b)
    (recordHeartbeat_eq_map b.store now.stamping now.ended n.id ▸
      revise_ne_noLaterTime (.answer now.ended) (fun k => (nodes.write n.id k, k.status)) hs h)
  unfold noteHeartbeat
  split
  · rfl
  · rename_i hp
    rw [hp] at hne
    exact absurd rfl hne
  · rfl

theorem onSilence_went (hs : b.store.Plain) (h : ∀ k, nodes.Finds b.store.data n.id k →
    ∃ stamp, nextStamp now.stamping k.updatedAt = .ok stamp) (e : ProbeError) (grace : Nat) :
    (onSilence n e grace now b).stopped = false := by
  have hne := Backing.perform_ne_noLaterTime (b := b)
    (markUnreachable_eq_map b.store now.stamping n.id (verdict (lastSeen n) now.ended grace) ▸
      revise_ne_noLaterTime (.silence _) (fun k => (nodes.write n.id k, ())) hs h)
  unfold onSilence
  dsimp only
  split
  · rfl
  · rename_i hp
    rw [hp] at hne
    exact absurd rfl hne
  · rfl

/-- Dealing with a node does not end a pass if there is a later time than the stamp found. -/
theorem onOutcome_went (hs : b.store.Plain) (h : ∀ k, nodes.Finds b.store.data n.id k →
    ∃ stamp, nextStamp now.stamping k.updatedAt = .ok stamp) (grace : Nat)
    (outcome : Except ProbeError HeartbeatResponse) :
    (onOutcome grace n outcome now b).stopped = false := by
  cases outcome with
  | ok r =>
    show (onAnswer n r now b).stopped = false
    have hu := reconcile_undergoes n.id r now.ended b n.assignedReplicas
    have hkey :
        Touch.on (nodes.key n.id) (n.assignedReplicas.map (replicaTouch r now.ended)) = [] :=
      on_replicaTouches (.ok r) fun id _ => Registry.nodes_apart_replicas n.id id
    rw [onAnswer_eq]
    refine noteHeartbeat_went (hu.plain hs).1 fun k hk => h k ?_
    obtain ⟨bs, hbs, hd⟩ := hk
    exact ⟨bs, (hu.get?_eq hs hkey).symm.trans hbs, hd⟩
  | error e => exact onSilence_went hs h e grace

/-! ## Room for the nodes still to be asked -/

/-- Whether the stamp of every node leaves room for one for each time that its id is among those
given. -/
def StampsLast (ids : List String) (m : KeyMap) : Prop :=
  ∀ id n, nodes.Finds m id n → n.Lasts (ids.count id)

theorem StampsLast.of_cons (h : StampsLast (id :: ids) m) : StampsLast ids m :=
  fun id' k hk => (h id' k hk).mono List.count_le_count_cons

theorem stamps_noteOf {time : Instant} (htime : time.Genuine) (grace : Nat)
    (outcome : Except ProbeError HeartbeatResponse) : (noteOf grace time n outcome).Stamps := by
  cases outcome with
  | ok r => exact Note.stamps_answer htime
  | error e => exact Note.stamps_silence _

/-- Dealing with a node takes one stamp of its away. -/
theorem StampsLast.onOutcome (hs : b.store.Plain) (h : StampsLast (n.id :: ids) b.store.data)
    (hnow : now.Both Instant.Genuine) (hl : now.stamping.Lasts (ids.count n.id)) (grace : Nat)
    (outcome : Except ProbeError HeartbeatResponse) :
    (onOutcome grace n outcome now b).stopped = false ∧
      StampsLast ids (onOutcome grace n outcome now b).backing.store.data := by
  have hself : ∀ k, nodes.Finds b.store.data n.id k →
      ∃ stamp, nextStamp now.stamping k.updatedAt = .ok stamp ∧
        stamp.Lasts (ids.count n.id) := by
    intro k hk
    have hlasts := h n.id k hk
    rw [List.count_cons_self] at hlasts
    exact exists_nextStamp hl hlasts
  refine ⟨onOutcome_went hs (fun k hk => (hself k hk).imp fun _ => And.left) grace outcome, ?_⟩
  have hu := onOutcome_undergoes grace n outcome now b
  rintro id k ⟨bs', hbs', hk⟩
  by_cases hid : id = n.id
  · subst hid
    rcases hu.get?_of_once hs on_touches_self with hsame | htouched
    · exact h.of_cons n.id k ⟨bs', hsame.symm.trans hbs', hk⟩
    -- The record was touched: it is as it was, or it has the note and its stamp.
    obtain ⟨bs, hbs, rfl⟩ := Option.map_eq_some_iff.1 (htouched.symm.trans hbs')
    have hnote := stamps_noteOf (n := n) hnow.ended grace outcome
    rcases hnote.ofBytes_touch_cases hnow.stamping n.id bs with
      hsame | ⟨k₀, stamp, hbs₀, hstamp, hk₀⟩
    · exact h.of_cons n.id k ⟨bs, hbs, hsame ▸ hk⟩
    · obtain ⟨stamp', hstamp', hlasts⟩ := hself k₀ ⟨bs, hbs, hbs₀⟩
      obtain rfl := Except.ok.inj (hstamp.symm.trans hstamp')
      obtain rfl := Except.ok.inj (hk₀.symm.trans hk)
      intro t ht
      rw [hnote.updatedAt_settle] at ht
      exact Option.some.inj ht ▸ hlasts
  · exact h.of_cons id k ⟨bs', (hu.get?_eq hs (on_touches_node hid)).symm.trans hbs', hk⟩

/-! ## Whole passes -/

variable {ns : List Node}

/-- Asks nodes that answer as given. The clock shows the same for each of them, and nothing else
happens to the store. -/
def askEach (outcome : Node → Except ProbeError HeartbeatResponse) : Prober Unit :=
  fun n scene => (some (outcome n), scene)

/-- Where there is room for all stamps every node is asked, in order, and the store undergoes what
dealing with each of them brings. -/
theorem visit_askEach (grace : Nat) (outcome : Node → Except ProbeError HeartbeatResponse)
    (hs : b.store.Plain) (h : StampsLast (ns.map Node.id) b.store.data)
    (hnow : now.Both Instant.Genuine)
    (hl : ∀ id, now.stamping.Lasts ((ns.map Node.id).count id - 1)) :
    let o := visit (askEach outcome) grace ns ⟨b, now, ()⟩
    o.ending = .finished ∧ o.asked = ns.map Node.id ∧
      b.Undergoes (passTouches grace now outcome ns) o.scene.backing := by
  induction ns generalizing b with
  | nil => exact ⟨rfl, rfl, .refl b⟩
  | cons n ns ih =>
    have hself := hl n.id
    rw [List.map_cons, List.count_cons_self] at hself
    obtain ⟨hgo, hrest⟩ := h.onOutcome hs hnow hself grace (outcome n)
    have hu := onOutcome_undergoes grace n (outcome n) now b
    have hl' : ∀ id, now.stamping.Lasts ((ns.map Node.id).count id - 1) := by
      intro id
      refine (hl id).mono ?_
      exact Nat.sub_le_sub_right (List.count_le_count_cons ..) 1
    obtain ⟨hending, hasked, hundergoes⟩ := ih (hu.plain hs).1 hrest hl'
    have hask : askEach outcome n ⟨b, now, ()⟩ = (some (outcome n), ⟨b, now, ()⟩) := rfl
    rw [visit_cons hask hgo]
    exact ⟨hending, congrArg (n.id :: ·) hasked, hu.trans hundergoes⟩

/-! ## Passes over stores that can be read -/

/-- The nodes that a pass asks: those that are online or unknown, in the order of their ids. -/
theorem probed_spec {P : Node → Prop} {s : Store} (h : nodes.Keeps P s) (hs : s.Plain) :
    ∃ ns, nodesWithStatus s probedStatuses = .ok ns ∧
      (ns.Pairwise fun n k => n.id < k.id) ∧
      ∀ n, n ∈ ns ↔ nodes.Finds s.data n.id n ∧ n.status ∈ probedStatuses := by
  obtain ⟨all, hall, hsorted, hmem⟩ := h.list hs
  refine ⟨all.filter fun n => probedStatuses.contains n.status, ?_, hsorted.filter _, ?_⟩
  · rw [nodesWithStatus, hall]
    rfl
  · intro n
    rw [List.mem_filter, hmem, List.contains_iff_mem]
    rfl

/-- Room for another stamp is enough for a pass over nodes with ids of their own. -/
theorem stampsLast_of_nodup {s : Store} (h : nodes.Keeps (Node.Lasts 1) s) (hids : ids.Nodup) :
    StampsLast ids s.data := by
  intro id n hn
  obtain ⟨-, -, hlasts⟩ := h.of_finds hn
  exact hlasts.mono (List.nodup_iff_count_le_one.1 hids id)

/-- Any clock leaves room for one stamp of each of some ids. -/
theorem lasts_of_nodup {now : Instant} (hids : ids.Nodup) (id : String) :
    now.Lasts (ids.count id - 1) := by
  rw [Nat.sub_eq_zero_of_le (List.nodup_iff_count_le_one.1 hids id)]
  exact Instant.lasts_zero

/-- On a store that works, what dealing with nodes with ids of their own brings is what happens. -/
theorem visit_touched (hw : b.Works) (h : nodes.Keeps (Node.Lasts 1) b.store)
    (hnow : now.Both Instant.Genuine) (grace : Nat)
    (outcome : Node → Except ProbeError HeartbeatResponse) (hids : (ns.map Node.id).Nodup) :
    let o := visit (askEach outcome) grace ns ⟨b, now, ()⟩
    o.ending = .finished ∧ o.scene.backing.Works ∧
      b.store.data.Touched (passTouches grace now outcome ns) o.scene.backing.store.data := by
  have hstamps := stampsLast_of_nodup h hids
  obtain ⟨hending, -, hu⟩ := visit_askEach grace outcome hw.plain hstamps hnow
    (lasts_of_nodup hids)
  exact ⟨hending, hu.works hw⟩

/-- Nodes in the order of their ids have ids of their own. -/
theorem nodup_of_sorted (h : ns.Pairwise fun n k => n.id < k.id) : (ns.map Node.id).Nodup := by
  rw [List.Nodup, List.pairwise_map]
  refine h.imp fun {n k} hlt he => ?_
  rw [he] at hlt
  exact String.lt_irrefl _ hlt

/-- On a store that works, a pass comes to its end, and what dealing with the nodes that it asks
brings is what happens. -/
theorem pass_touched (hw : b.Works) (h : nodes.Keeps (Node.Lasts 1) b.store)
    (hnow : now.Both Instant.Genuine) (grace : Nat)
    (outcome : Node → Except ProbeError HeartbeatResponse)
    (hns : nodesWithStatus b.store probedStatuses = .ok ns) (hids : (ns.map Node.id).Nodup) :
    ∃ o, pass (askEach outcome) grace ⟨b, now, ()⟩ = .ok o ∧ o.ending = .finished ∧
      o.scene.backing.Works ∧
      b.store.data.Touched (passTouches grace now outcome ns) o.scene.backing.store.data :=
  ⟨_, pass_of_probed grace hns, visit_touched hw h hnow grace outcome hids⟩

/-! ## A store with one node and its replica -/

/-- A node that one replica is assigned to, with a stamp. -/
def soloNode : Node :=
  { Operation.bareNode with
    id := "n"
    assignedReplicas := ["r"]
    updatedAt := some ⟨0, 0⟩ }

/-- The replica that is assigned to it. -/
def soloReplica : Replica := { id := "r", modelId := "m" }

/-- A store with these two and nothing else. -/
def solo : Backing :=
  ⟨.volatile ⟨(replicas.write "r" soloReplica).apply ((nodes.write "n" soloNode).apply .empty),
    false⟩, {}⟩

/-- A clock that goes on while a node is dealt with. -/
def soloReadings : Readings := ⟨⟨1, 0⟩, ⟨1, 500⟩⟩

theorem soloReadings_genuine : soloReadings.Both Instant.Genuine :=
  ⟨⟨by decide, by decide⟩, by decide, by decide⟩

theorem solo_works : solo.Works :=
  ⟨trivial, rfl⟩

theorem solo_shows_nodes :
    nodes.Shows solo.store.data (Function.update (fun _ => none) "n" (some soloNode)) := by
  have hfits : soloNode.Fits :=
    { Operation.fits_bareNode with updatedAt := Instant.optionInRange_some (by decide) }
  exact ((Registry.Shows.empty nodes).write nodes.laws (Node.fits_iff.2 hfits) (by decide)
    rfl).elsewhere (c := replicas.write "r" soloReplica) Registry.nodes_apart_replicas ⟨"r", rfl⟩

theorem solo_shows_replicas :
    replicas.Shows solo.store.data (Function.update (fun _ => none) "r" (some soloReplica)) := by
  have hfits : replicas.laws.Fits soloReplica := Replica.fits_iff.2 Instant.optionInRange_none
  exact ((Registry.Shows.empty replicas).elsewhere (c := nodes.write "n" soloNode)
    Registry.nodes_apart_replicas.symm ⟨"n", rfl⟩).write replicas.laws hfits (by decide) rfl

/-- The stamp of the node leaves room for another. -/
theorem solo_lasts (id : String) (n : Node)
    (hn : Function.update (fun _ => none) "n" (some soloNode) id = some n) : n.Lasts 1 := by
  by_cases hid : id = "n"
  · subst hid
    rw [Function.update_self] at hn
    obtain rfl := Option.some.inj hn
    intro t ht
    obtain rfl := Option.some.inj ht
    exact Instant.lasts_of_ticks (by decide) (by decide)
  · rw [Function.update_of_ne hid] at hn
    cases hn

theorem solo_keeps_nodes : nodes.Keeps (Node.Lasts 1) solo.store :=
  solo_shows_nodes.keeps solo_lasts

theorem solo_get_node : nodes.get solo.store "n" = .ok (some soloNode) := by
  rw [solo_shows_nodes.get solo_works.plain (by decide), Function.update_self]

/-- The one node is asked, however the store with the map came about. -/
theorem probed_solo {s : Store} (hs : s.Plain) (hd : s.data = solo.store.data) :
    nodesWithStatus s probedStatuses = .ok [soloNode] := by
  have hkeeps : nodes.Keeps (Node.Lasts 1) s := by
    intro e he
    rw [hd] at he
    exact solo_keeps_nodes e he
  obtain ⟨ns, hns, hsorted, hmem⟩ := probed_spec hkeeps hs
  have hsolo : nodes.Finds solo.store.data "n" soloNode :=
    ((Registry.get_some_iff solo_works.plain).1 solo_get_node).2
  have hone : ∀ n, n ∈ ns ↔ n ∈ [soloNode] := by
    intro n
    rw [hmem, hd, List.mem_singleton]
    constructor
    · rintro ⟨⟨bs, hbs, hread⟩, -⟩
      have hf := solo_shows_nodes.found n.id
      rw [hbs, Option.map_some, hread] at hf
      obtain ⟨k, hk, he⟩ := Option.map_eq_some_iff.1 hf.symm
      by_cases hid : n.id = "n"
      · rw [hid, Function.update_self] at hk
        exact (Except.ok.inj he).symm.trans (Option.some.inj hk).symm
      · rw [Function.update_of_ne hid] at hk
        cases hk
    · rintro rfl
      exact ⟨hsolo, by decide⟩
  have : Std.Irrefl fun n k : Node => n.id < k.id := ⟨fun n => String.lt_irrefl n.id⟩
  rw [hns, hsorted.eq_of_mem_iff (List.pairwise_singleton _ _) fun {n} => hone n]

theorem solo_get_replica : replicas.get solo.store "r" = .ok (some soloReplica) := by
  rw [solo_shows_replicas.get solo_works.plain (by decide), Function.update_self]

end Detector

end ControlPlane
