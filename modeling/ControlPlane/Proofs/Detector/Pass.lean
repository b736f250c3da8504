import ControlPlane.Proofs.Detector.Occasions
import ControlPlane.Proofs.Registry.Backing

/-!
# Passes over a sound store

On a sound store that works a pass of the detector never fails and never runs out of later times, as
long as the probe leaves the store alone and the clock stays a microsecond below the last instant
(`Detector.Steady`, `Detector.pass_spec`). Every node gets at most one stamp in a pass, so the bound
of its stamps goes up by a microsecond.
-/

namespace ControlPlane.Detector

variable {bound bound' : String → Int} {now : Readings} {b : Backing}

/-! ## Steps -/

/-- Whether a step went on and left a sound store that works. -/
structure Progress.Sound (bound : String → Int) (p : Progress) : Prop where
  went : p.stopped = false
  backing : p.backing.Sound bound

theorem Progress.Sound.of_went (h : b.Sound bound) (events : List Event) :
    (Progress.went b events).Sound bound :=
  ⟨rfl, h⟩

theorem Progress.Sound.andThen {p : Progress} (h : p.Sound bound) {next : Backing → Progress}
    (hn : (next p.backing).Sound bound') : (p.andThen next).Sound bound' := by
  unfold Progress.andThen
  rw [h.went]
  exact ⟨hn.went, hn.backing⟩

/-! ## An answer -/

theorem reconcileOne_spec {now : Instant} (h : b.Sound bound) (hn : now.inRange = true)
    (node : String) (r : HeartbeatResponse) (replicaId : String) :
    (reconcileOne node r now b replicaId).Sound bound := by
  unfold reconcileOne
  rcases Registry.get_spec replicas.laws h.data.keeps_replicas replicaId with
    ⟨e, he, -⟩ | ⟨o, ho, -⟩
  · rw [he]
    exact .of_went h _
  · rw [ho]
    cases o with
    | none => exact .of_went h _
    | some replica =>
      dsimp only
      have hput : Fair (Change.Sound bound)
          (replicas.put replicaId (replica.observed (r.observe replicaId) now)) :=
        Replica.put_fair (Replica.fits_observed replica (r.observe replicaId) hn) replicaId
      obtain ⟨x, b', hp, hs, -⟩ := h.perform (fun _ => Int.le_refl _)
        (hput.map (f := fun c => (c, ())) fun _ hc => hc)
      rw [hp]
      cases x with
      | ok u => exact .of_went hs _
      | error e => exact .of_went hs _

theorem reconcile_spec {now : Instant} (h : b.Sound bound) (hn : now.inRange = true)
    (node : String) (r : HeartbeatResponse) (assigned : List String) :
    (reconcile node r now b assigned).Sound bound := by
  unfold reconcile
  have start := Progress.Sound.of_went h []
  revert start
  generalize Progress.went b [] = p
  intro hp
  induction assigned generalizing p with
  | nil => exact hp
  | cons id assigned ih =>
    exact ih _ (hp.andThen (reconcileOne_spec hp.backing hn node r id))

theorem noteHeartbeat_spec (h : b.Sound bound) (hb : ∀ id, bound id ≤ bound' id) (n : Node)
    (hr : Room bound bound' n.id now.stamping) (ho : now.ended.inRange = true) :
    (noteHeartbeat n now b).Sound bound' := by
  unfold noteHeartbeat
  obtain ⟨x, b', hp, hs, hx⟩ := h.perform hb (Node.recordHeartbeat_fair h.data hr ho)
  rw [hp]
  rcases hx with ⟨e, rfl, he⟩ | ⟨status, rfl, -⟩
  · cases e with
    | noLaterTime => exact absurd rfl he.ne_noLaterTime
    | _ => exact .of_went hs _
  · exact .of_went hs _

theorem onAnswer_spec (h : b.Sound bound) (hb : ∀ id, bound id ≤ bound' id) (n : Node)
    (hr : Room bound bound' n.id now.stamping) (ho : now.ended.inRange = true)
    (r : HeartbeatResponse) : (onAnswer n r now b).Sound bound' := by
  have hrec := reconcile_spec h ho n.id r n.assignedReplicas
  have hnote := noteHeartbeat_spec hrec.backing hb n hr ho
  unfold onAnswer
  refine (Progress.Sound.of_went h _).andThen ?_
  exact hrec.andThen hnote

/-! ## No answer -/

theorem onSilence_spec (h : b.Sound bound) (hb : ∀ id, bound id ≤ bound' id) (n : Node)
    (hr : Room bound bound' n.id now.stamping) (e : ProbeError) (grace : Nat) :
    (onSilence n e grace now b).Sound bound' := by
  unfold onSilence
  dsimp only
  obtain ⟨x, b', hp, hs, hx⟩ := h.perform hb
    ((Node.markUnreachable_fair h.data hr (verdict (lastSeen n) now.ended grace)).map
      (f := fun c => (c, ())) fun _ hc => hc)
  rw [hp]
  rcases hx with ⟨e, rfl, he⟩ | ⟨u, rfl, -⟩
  · cases e with
    | noLaterTime => exact absurd rfl he.ne_noLaterTime
    | _ => exact .of_went hs _
  · exact .of_went hs _

theorem onOutcome_spec (h : b.Sound bound) (hb : ∀ id, bound id ≤ bound' id) (n : Node)
    (hr : Room bound bound' n.id now.stamping) (ho : now.ended.inRange = true) (grace : Nat)
    (outcome : Except ProbeError HeartbeatResponse) :
    (onOutcome grace n outcome now b).Sound bound' := by
  cases outcome with
  | ok r => exact onAnswer_spec h hb n hr ho r
  | error e => exact onSilence_spec h hb n hr e grace

/-! ## The pass -/

/-- Whether asking leaves the store alone on all occasions of a pass and the clock keeps to its
range up to a limit. -/
def Steady {σ : Type} (limit : Int) : Prober σ → Nat → Scene σ → Prop :=
  Calm fun t => t.inRange = true ∧ t.ticks ≤ limit

/-- The bounds of stamps while nodes are still to be asked: theirs are the old ones. -/
def pending (ids : List String) (limit : Int) (id : String) : Int :=
  if id ∈ ids then limit else limit + 1000

theorem pending_cons {now : Instant} {id : String} {ids : List String} (limit : Int)
    (h : id ∉ ids) (hi : now.inRange = true) (hc : now.ticks ≤ limit)
    (hl : limit + 1000 ≤ Instant.lastTick) :
    (∀ i, pending (id :: ids) limit i ≤ pending ids limit i) ∧
      Room (pending (id :: ids) limit) (pending ids limit) id now := by
  have hold : pending (id :: ids) limit id = limit := if_pos List.mem_cons_self
  have hnew : pending ids limit id = limit + 1000 := if_neg h
  refine ⟨fun i => ?_, hi, by omega, by omega, by omega⟩
  unfold pending
  by_cases hi : i ∈ ids
  · rw [if_pos hi, if_pos (List.mem_cons_of_mem _ hi)]
  · rw [if_neg hi]
    split <;> omega

theorem visit_spec {σ : Type} {limit : Int} {ask : Prober σ} {grace : Nat}
    (hl : limit + 1000 ≤ Instant.lastTick) {ns : List Node} (hns : (ns.map Node.id).Nodup)
    {scene : Scene σ} (h : scene.backing.Sound (pending (ns.map Node.id) limit))
    (hs : ∀ x ∈ occasions ask grace ns scene,
      x.Calm (fun t => t.inRange = true ∧ t.ticks ≤ limit) ask) :
    (visit ask grace ns scene).ending ≠ .noLaterTime ∧
      (visit ask grace ns scene).scene.backing.Sound (fun _ => limit + 1000) := by
  induction ns generalizing scene with
  | nil => exact ⟨by simp [visit], h⟩
  | cons n ns ih =>
    obtain ⟨hn, hns⟩ := List.nodup_cons.1 hns
    obtain ⟨hbacking, ⟨ho, -⟩, hi, hc⟩ := hs ⟨n, scene⟩ List.mem_cons_self
    dsimp only at hbacking ho hi hc
    rcases hask : ask n scene with ⟨outcome, scene'⟩
    rw [hask] at hbacking ho hi hc
    rw [← hbacking] at h
    obtain ⟨hb, hroom⟩ := pending_cons limit hn hi hc hl
    cases outcome with
    | none =>
      rw [(visit_interrupted grace ns hask).1]
      refine ⟨by simp, h.mono fun i => ?_⟩
      show pending _ _ _ ≤ _
      unfold pending
      split <;> omega
    | some outcome =>
      obtain ⟨hwent, hsound⟩ := onOutcome_spec h hb n hroom ho grace outcome
      rw [occasions_cons hask hwent] at hs
      rw [visit_cons hask hwent]
      exact ih hns hsound fun x hx => hs x (List.mem_cons_of_mem _ hx)

/-- A pass over a sound store that works comes to an end, and the store stays sound. -/
theorem pass_spec {σ : Type} (limit : Int) {ask : Prober σ} {grace : Nat} {scene : Scene σ}
    (hl : limit + 1000 ≤ Instant.lastTick) (h : scene.backing.Sound fun _ => limit)
    (hs : Steady limit ask grace scene) :
    ∃ o, pass ask grace scene = .ok o ∧ o.ending ≠ .noLaterTime ∧
      o.scene.backing.Sound fun _ => limit + 1000 := by
  obtain ⟨all, hlist, hnodup, -⟩ := Registry.list_spec h.data.keeps_nodes
  let ns := all.filter fun n => probedStatuses.contains n.status
  have hns : nodesWithStatus scene.backing.store probedStatuses = .ok ns := by
    rw [nodesWithStatus, hlist]
    rfl
  have hprobed : (ns.map Node.id).Nodup := hnodup.sublist (List.filter_sublist.map _)
  refine ⟨_, pass_of_probed grace hns, visit_spec hl hprobed (h.mono fun i => ?_) ?_⟩
  · unfold pending
    split <;> omega
  · rw [← passOccasions_of_probed ask grace hns]
    exact hs

end ControlPlane.Detector
