import ControlPlane.Proofs.Detector.Meanwhile
import ControlPlane.Proofs.Registry.Revision
import ControlPlane.Proofs.Registry.Stamp

/-!
# What a pass touches

Dealing with a node touches records one after the other: those of the replicas assigned to it, in
their order, if it answered, and then its own (`Detector.touches`). A store that works undergoes all
of these touches, and any other store some of them (`Detector.onOutcome_undergoes`). Nodes are dealt
with one after the other, and a pass touches what dealing with each of them does
(`Detector.passTouches`).
-/

namespace ControlPlane

/-- What a note makes of the record of a node. -/
def Note.revise (note : Note) (now : Instant) (n : Node) : Except RegistryError Node :=
  (nextStamp now n.updatedAt).map (note n)

namespace Detector

/-! ## Steps one after the other -/

namespace Progress

variable {p : Progress} {next next' : Backing → Progress} {b : Backing} {ts ts' : List Touch}

theorem andThen_of_went (h : p.stopped = false) : p.andThen next =
    { next p.backing with events := p.events ++ (next p.backing).events } := by
  rw [andThen, h]
  rfl

@[simp] theorem went_andThen : (went b []).andThen next = next b :=
  rfl

theorem andThen_assoc :
    (p.andThen next).andThen next' = p.andThen fun b => (next b).andThen next' := by
  unfold andThen
  by_cases hp : p.stopped = true
  · simp [hp]
  · by_cases hn : (next p.backing).stopped = true <;> simp [hp, hn]

theorem andThen_went (p : Progress) : (p.andThen fun b => went b []) = p := by
  cases p
  simp [andThen, went]

/-- The touches of a step and of the one after it. -/
theorem undergoes_andThen (hp : b.Undergoes ts p.backing) (hgo : p.stopped = false)
    (hn : p.backing.Undergoes ts' (next p.backing).backing) :
    b.Undergoes (ts ++ ts') (p.andThen next).backing := by
  rw [andThen_of_went hgo]
  exact hp.trans hn

end Progress

/-- Steps that follow another one go on from it. -/
theorem foldl_andThen {α : Type} (step : α → Backing → Progress) (as : List α) (p : Progress) :
    as.foldl (fun p a => p.andThen (step a)) p =
      p.andThen fun b => as.foldl (fun p a => p.andThen (step a)) (.went b []) := by
  induction as generalizing p with
  | nil => exact p.andThen_went.symm
  | cons a as ih =>
    rw [List.foldl_cons, ih, Progress.andThen_assoc]
    refine congrArg p.andThen (funext fun b => ?_)
    rw [List.foldl_cons, ih ((Progress.went b []).andThen (step a)), Progress.went_andThen]

/-! ## The records of replicas -/

/-- What an answer makes of the record of a replica. -/
def reviseReplica (r : HeartbeatResponse) (now : Instant) (id : String) (replica : Replica) :
    Except RegistryError Replica :=
  replicas.stamp id (replica.observed (r.observe id) now)

/-- The touch of the record of a replica that an answer brings. -/
def replicaTouch (r : HeartbeatResponse) (now : Instant) (id : String) : Touch :=
  replicas.touch id (reviseReplica r now id)

section Replicas

variable (node : String) (r : HeartbeatResponse) (now : Instant) (b : Backing) (id : String)
  (ids : List String)

/-- Bringing a record in line with an answer is a decision to revise it. -/
theorem reconcileOne_backing :
    (reconcileOne node r now b id).backing =
      (b.perform ((replicas.require b.store id >>= reviseReplica r now id).map
        fun a => (replicas.write id a, ()))).2 := by
  unfold reconcileOne Registry.require
  cases replicas.get b.store id with
  | error e => rfl
  | ok o =>
    cases o with
    | none => rfl
    | some replica =>
      have hput : ((replicas.put id (replica.observed (r.observe id) now)).map fun c => (c, ())) =
          (reviseReplica r now id replica).map fun a => (replicas.write id a, ()) := by
        unfold Registry.put reviseReplica
        cases replicas.stamp id (replica.observed (r.observe id) now) <;> rfl
      dsimp only
      rw [hput]
      show _ = (b.perform ((reviseReplica r now id replica).map _)).2
      split <;> rename_i h <;> rw [h] <;> rfl

theorem reconcileOne_went : (reconcileOne node r now b id).stopped = false := by
  unfold reconcileOne
  split
  · dsimp only
    split <;> rfl
  · rfl
  · rfl

theorem reconcileOne_undergoes :
    b.Undergoes [replicaTouch r now id] (reconcileOne node r now b id).backing := by
  rw [reconcileOne_backing]
  exact .of_perform rfl

theorem reconcile_cons : reconcile node r now b (id :: ids) =
    (reconcileOne node r now b id).andThen fun b => reconcile node r now b ids := by
  unfold reconcile
  rw [List.foldl_cons, Progress.went_andThen]
  exact foldl_andThen (fun id b => reconcileOne node r now b id) ids _

theorem reconcile_went : (reconcile node r now b ids).stopped = false := by
  induction ids generalizing b with
  | nil => rfl
  | cons id ids ih =>
    rw [reconcile_cons, Progress.andThen_of_went (reconcileOne_went node r now b id)]
    exact ih _

theorem reconcile_undergoes :
    b.Undergoes (ids.map (replicaTouch r now)) (reconcile node r now b ids).backing := by
  induction ids generalizing b with
  | nil => exact .refl b
  | cons id ids ih =>
    rw [reconcile_cons]
    exact Progress.undergoes_andThen (reconcileOne_undergoes node r now b id)
      (reconcileOne_went node r now b id) (ih _)

end Replicas

/-! ## The record of a node -/

theorem recordHeartbeat_eq_map (s : Store) (now time : Instant) (id : String) :
    Node.recordHeartbeat s now id time =
      (nodes.require s id >>= (Note.answer time).revise now).map fun n =>
        (nodes.write id n, n.status) := by
  unfold Node.recordHeartbeat
  cases nodes.require s id with
  | error e => rfl
  | ok n =>
    show (nextStamp now n.updatedAt >>= _) = ((nextStamp now n.updatedAt).map _).map _
    cases nextStamp now n.updatedAt <;> rfl

theorem markUnreachable_eq_map (s : Store) (now : Instant) (id : String) (status : NodeStatus) :
    ((Node.markUnreachable s now id status).map fun c => (c, ())) =
      (nodes.require s id >>= (Note.silence status).revise now).map fun n =>
        (nodes.write id n, ()) := by
  unfold Node.markUnreachable
  cases nodes.require s id with
  | error e => rfl
  | ok n =>
    show (nextStamp now n.updatedAt >>= _).map _ = ((nextStamp now n.updatedAt).map _).map _
    cases nextStamp now n.updatedAt <;> rfl

theorem noteHeartbeat_backing (n : Node) (now : Readings) (b : Backing) :
    (noteHeartbeat n now b).backing =
    (b.perform ((nodes.require b.store n.id >>= (Note.answer now.ended).revise now.stamping).map
      fun m => (nodes.write n.id m, m.status))).2 := by
  rw [← recordHeartbeat_eq_map]
  unfold noteHeartbeat
  split <;> rename_i h <;> rw [h] <;> rfl

theorem onSilence_backing (n : Node) (e : ProbeError) (grace : Nat) (now : Readings)
    (b : Backing) : (onSilence n e grace now b).backing =
    (b.perform ((nodes.require b.store n.id >>=
      (Note.silence (verdict (lastSeen n) now.ended grace)).revise now.stamping).map fun m =>
        (nodes.write n.id m, ()))).2 := by
  rw [← markUnreachable_eq_map]
  unfold onSilence
  dsimp only
  split <;> rename_i h <;> rw [h] <;> rfl

/-! ## Dealing with a node -/

/-- Silence makes a node unknown or offline. -/
theorem verdict_cases (seen : Option Instant) (now : Instant) (grace : Nat) :
    verdict seen now grace = .unknown ∨ verdict seen now grace = .offline := by
  cases seen with
  | none => exact .inr rfl
  | some seen =>
    by_cases h : grace < silence seen now
    · exact .inr (if_pos h)
    · exact .inl (if_neg h)

/-- What is noted in the record of a node when it is known what came of asking it. -/
def noteOf (grace : Nat) (time : Instant) (n : Node) :
    Except ProbeError HeartbeatResponse → Note
  | .ok _ => .answer time
  | .error _ => .silence (verdict (lastSeen n) time grace)

/-- The touches of the records of replicas when it is known what came of asking a node. -/
def replicaTouches (time : Instant) (n : Node) : Except ProbeError HeartbeatResponse → List Touch
  | .ok r => n.assignedReplicas.map (replicaTouch r time)
  | .error _ => []

/-- The touch of the record of a node that was asked. -/
def nodeTouch (grace : Nat) (now : Readings) (n : Node)
    (outcome : Except ProbeError HeartbeatResponse) : Touch :=
  nodes.touch n.id ((noteOf grace now.ended n outcome).revise now.stamping)

/-- What is touched when a node was asked. -/
def touches (grace : Nat) (now : Readings) (n : Node)
    (outcome : Except ProbeError HeartbeatResponse) : List Touch :=
  replicaTouches now.ended n outcome ++ [nodeTouch grace now n outcome]

/-- An answer first goes into the records of the replicas and then into that of the node. -/
theorem onAnswer_eq (n : Node) (r : HeartbeatResponse) (now : Readings) (b : Backing) :
    onAnswer n r now b =
    let q := reconcile n.id r now.ended b n.assignedReplicas
    let p := noteHeartbeat n now q.backing
    { p with events :=
        (.answered n.id :: if r.success then [] else [.selfCheckFailed n.id]) ++
          (q.events ++ p.events) } := by
  unfold onAnswer
  rw [Progress.andThen_of_went rfl]
  dsimp only
  rw [Progress.andThen_of_went (reconcile_went ..)]
  rfl

/-- Dealing with a node touches what it should, one record after the other. -/
theorem onOutcome_undergoes (grace : Nat) (n : Node)
    (outcome : Except ProbeError HeartbeatResponse) (now : Readings) (b : Backing) :
    b.Undergoes (touches grace now n outcome) (onOutcome grace n outcome now b).backing := by
  cases outcome with
  | ok r =>
    show b.Undergoes _ (onAnswer n r now b).backing
    rw [onAnswer_eq]
    refine (reconcile_undergoes n.id r now.ended b n.assignedReplicas).trans ?_
    rw [noteHeartbeat_backing]
    exact .of_perform rfl
  | error e =>
    show b.Undergoes _ (onSilence n e grace now b).backing
    rw [onSilence_backing]
    exact .of_perform rfl

/-! ## The touches of a key -/

section Keys

variable {grace : Nat} {now : Readings} {time : Instant} {n : Node} {id key : String}
  {r : HeartbeatResponse} {outcome : Except ProbeError HeartbeatResponse}

theorem on_replicaTouches (outcome : Except ProbeError HeartbeatResponse)
    (h : ∀ id ∈ n.assignedReplicas, key ≠ replicas.key id) :
    Touch.on key (replicaTouches time n outcome) = [] := by
  refine Touch.on_eq_nil fun t ht => ?_
  cases outcome with
  | ok r =>
    obtain ⟨id, hid, rfl⟩ := List.mem_map.1 ht
    exact (h id hid).symm
  | error e => simp [replicaTouches] at ht

/-- The record of a node is touched once. -/
theorem on_touches_self :
    Touch.on (nodes.key n.id) (touches grace now n outcome) = [nodeTouch grace now n outcome] := by
  unfold touches
  rw [Touch.on_append, on_replicaTouches outcome fun id _ => Registry.nodes_apart_replicas n.id id]
  exact Touch.on_cons_self (nodeTouch grace now n outcome) []

/-- Nothing is touched but the record of the node and those of its replicas. -/
theorem on_touches (hn : key ≠ nodes.key n.id)
    (hr : ∀ id ∈ n.assignedReplicas, key ≠ replicas.key id) :
    Touch.on key (touches grace now n outcome) = [] := by
  unfold touches
  rw [Touch.on_append, on_replicaTouches outcome hr, List.nil_append]
  exact Touch.on_cons_of_ne (t := nodeTouch grace now n outcome) hn.symm

theorem on_touches_node (h : id ≠ n.id) :
    Touch.on (nodes.key id) (touches grace now n outcome) = [] :=
  on_touches (fun he => h (Registry.key_inj he)) fun id' _ =>
    Registry.nodes_apart_replicas id id'

theorem on_map_replicaTouch (ids : List String) :
    Touch.on (replicas.key id) (ids.map (replicaTouch r time)) =
      List.replicate (ids.count id) (replicaTouch r time id) := by
  induction ids with
  | nil => rfl
  | cons id' ids ih =>
    by_cases h : id' = id
    · subst h
      rw [List.map_cons, List.count_cons_self, List.replicate_succ, ← ih]
      exact Touch.on_cons_self (replicaTouch r time id') _
    · rw [List.map_cons, List.count_cons_of_ne h, ← ih]
      exact Touch.on_cons_of_ne (t := replicaTouch r time id') fun he => h (Registry.key_inj he)

/-- The record of a replica is touched as often as it is assigned to a node that answered. -/
theorem on_touches_replica : Touch.on (replicas.key id) (touches grace now n outcome) =
    match outcome with
    | .ok r => List.replicate (n.assignedReplicas.count id) (replicaTouch r now.ended id)
    | .error _ => [] := by
  have hnode : Touch.on (replicas.key id) [nodeTouch grace now n outcome] = [] :=
    Touch.on_cons_of_ne (Registry.nodes_apart_replicas n.id id)
  unfold touches
  rw [Touch.on_append, hnode, List.append_nil]
  cases outcome with
  | ok r => exact on_map_replicaTouch n.assignedReplicas
  | error e => rfl

end Keys

/-! ## The touches of a pass -/

/-- What is touched when nodes were asked, one after the other. -/
def passTouches (grace : Nat) (now : Readings)
    (outcome : Node → Except ProbeError HeartbeatResponse) (ns : List Node) : List Touch :=
  ns.flatMap fun n => touches grace now n (outcome n)

section Passes

variable {grace : Nat} {now : Readings} {outcome : Node → Except ProbeError HeartbeatResponse}
  {n : Node} {ns : List Node} {key : String}

theorem passTouches_cons : passTouches grace now outcome (n :: ns) =
    touches grace now n (outcome n) ++ passTouches grace now outcome ns :=
  List.flatMap_cons

theorem on_passTouches : Touch.on key (passTouches grace now outcome ns) =
    ns.flatMap fun n => Touch.on key (touches grace now n (outcome n)) :=
  Touch.on_flatMap ..

theorem on_passTouches_eq_nil
    (h : ∀ n ∈ ns, Touch.on key (touches grace now n (outcome n)) = []) :
    Touch.on key (passTouches grace now outcome ns) = [] := by
  rw [on_passTouches]
  exact List.flatMap_eq_nil_iff.2 h

/-- The record of a node that is asked once is touched once. -/
theorem on_passTouches_node (hids : (ns.map Node.id).Nodup) (hn : n ∈ ns) :
    Touch.on (nodes.key n.id) (passTouches grace now outcome ns) =
      [nodeTouch grace now n (outcome n)] := by
  induction ns with
  | nil => cases hn
  | cons k ns ih =>
    obtain ⟨hk, hids⟩ := List.nodup_cons.1 hids
    rw [passTouches_cons, Touch.on_append]
    rcases List.mem_cons.1 hn with rfl | hn
    · rw [on_touches_self, on_passTouches_eq_nil, List.append_nil]
      intro k hmem
      refine on_touches_node fun he => hk ?_
      exact he ▸ List.mem_map_of_mem hmem
    · rw [ih hids hn, on_touches_node, List.nil_append]
      intro he
      exact hk (he ▸ List.mem_map_of_mem hn)

end Passes

end Detector

end ControlPlane
