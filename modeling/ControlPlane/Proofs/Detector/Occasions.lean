import ControlPlane.Detector.Pass
import ControlPlane.Proofs.Except

/-!
# The occasions of a pass

A pass asks each of its nodes in a scene that depends on what came before. These are its occasions
(`Detector.passOccasions`, `Detector.asked_of_pass`). What a prober would do elsewhere is nothing to
the pass (`Detector.pass_congr`), so whatever is required of a prober is required of it on the
occasions of the pass alone, as in `Detector.Calm`.
-/

namespace ControlPlane.Detector

/-! ## What the clock shows -/

/-- Whether both times that the clock shows have a property. -/
structure Readings.Both (P : Instant → Prop) (now : Readings) : Prop where
  ended : P now.ended
  stamping : P now.stamping

theorem Readings.Both.mono {P Q : Instant → Prop} {now : Readings} (h : now.Both P)
    (hPQ : ∀ t, P t → Q t) : now.Both Q :=
  ⟨hPQ _ h.ended, hPQ _ h.stamping⟩

/-! ## Occasions -/

/-- A node that is asked, and the scene in which it is. -/
structure Occasion (σ : Type) where
  node : Node
  scene : Scene σ

/-- The occasions on which nodes are asked in their order. -/
def occasions {σ : Type} (ask : Prober σ) (grace : Nat) : List Node → Scene σ → List (Occasion σ)
  | [], _ => []
  | n :: rest, scene =>
    ⟨n, scene⟩ ::
      match ask n scene with
      | (none, _) => []
      | (some outcome, scene) =>
        let p := onOutcome grace n outcome scene.readings scene.backing
        if p.stopped then [] else occasions ask grace rest { scene with backing := p.backing }

/-- The occasions of a pass. -/
def passOccasions {σ : Type} (ask : Prober σ) (grace : Nat) (scene : Scene σ) :
    List (Occasion σ) :=
  match nodesWithStatus scene.backing.store probedStatuses with
  | .ok ns => occasions ask grace ns scene
  | .error _ => []

section Visits

variable {σ : Type} {ask : Prober σ} {scene scene' : Scene σ} {n : Node} {ns : List Node}
  {outcome : Except ProbeError HeartbeatResponse}

theorem pass_of_probed (grace : Nat)
    (hns : nodesWithStatus scene.backing.store probedStatuses = .ok ns) :
    pass ask grace scene = .ok (visit ask grace ns scene) := by
  rw [pass, hns]
  rfl

/-- A pass that is no error visits the nodes that are to be asked. -/
theorem visit_of_pass {grace : Nat} {o : Outcome σ} (h : pass ask grace scene = .ok o) :
    ∃ ns, nodesWithStatus scene.backing.store probedStatuses = .ok ns ∧
      o = visit ask grace ns scene := by
  obtain ⟨ns, hns, hvisit⟩ := Except.bind_eq_ok.1 h
  exact ⟨ns, hns, (Except.pure_eq_ok.1 hvisit).symm⟩

theorem passOccasions_of_probed (ask : Prober σ) (grace : Nat)
    (hns : nodesWithStatus scene.backing.store probedStatuses = .ok ns) :
    passOccasions ask grace scene = occasions ask grace ns scene := by
  rw [passOccasions, hns]

/-! ### Steps of a visit -/

/-- Nothing comes of asking a node. -/
theorem visit_interrupted (grace : Nat) (ns : List Node) (hask : ask n scene = (none, scene')) :
    visit ask grace (n :: ns) scene = ⟨scene', [n.id], [], .interrupted⟩ ∧
      occasions ask grace (n :: ns) scene = [⟨n, scene⟩] := by
  rw [visit, occasions, hask]
  exact ⟨rfl, rfl⟩

/-- A node is asked, but there is no later time to stamp it with. -/
theorem visit_stopped {grace : Nat} (ns : List Node)
    (hask : ask n scene = (some outcome, scene'))
    (hstopped : (onOutcome grace n outcome scene'.readings scene'.backing).stopped = true) :
    let p := onOutcome grace n outcome scene'.readings scene'.backing
    visit ask grace (n :: ns) scene =
        ⟨{ scene' with backing := p.backing }, [n.id], p.events, .noLaterTime⟩ ∧
      occasions ask grace (n :: ns) scene = [⟨n, scene⟩] := by
  rw [visit, occasions, hask]
  dsimp only
  rw [hstopped]
  exact ⟨rfl, rfl⟩

/-- A node is asked and dealt with, and then the others are. -/
theorem visit_cons {grace : Nat} (hask : ask n scene = (some outcome, scene'))
    (hgo : (onOutcome grace n outcome scene'.readings scene'.backing).stopped = false) :
    visit ask grace (n :: ns) scene =
      let p := onOutcome grace n outcome scene'.readings scene'.backing
      let o := visit ask grace ns { scene' with backing := p.backing }
      { o with asked := n.id :: o.asked, events := p.events ++ o.events } := by
  rw [visit, hask]
  dsimp only
  rw [hgo]
  rfl

theorem occasions_cons {grace : Nat} (hask : ask n scene = (some outcome, scene'))
    (hgo : (onOutcome grace n outcome scene'.readings scene'.backing).stopped = false) :
    occasions ask grace (n :: ns) scene = ⟨n, scene⟩ :: occasions ask grace ns { scene' with
      backing := (onOutcome grace n outcome scene'.readings scene'.backing).backing } := by
  rw [occasions, hask]
  dsimp only
  rw [hgo]
  rfl

theorem asked_eq_map_occasions (ask : Prober σ) (grace : Nat) (ns : List Node) (scene : Scene σ) :
    (visit ask grace ns scene).asked = (occasions ask grace ns scene).map (·.node.id) := by
  induction ns generalizing scene with
  | nil => rfl
  | cons n ns ih =>
    rcases hask : ask n scene with ⟨_ | outcome, scene'⟩
    · obtain ⟨hvisit, hoccasions⟩ := visit_interrupted grace ns hask
      rw [hvisit, hoccasions]
      rfl
    · cases hgo : (onOutcome grace n outcome scene'.readings scene'.backing).stopped with
      | true =>
        obtain ⟨hvisit, hoccasions⟩ := visit_stopped ns hask hgo
        rw [hvisit, hoccasions]
        rfl
      | false =>
        rw [visit_cons hask hgo, occasions_cons hask hgo]
        exact congrArg (n.id :: ·) (ih _)

/-- The nodes that a pass asks are those of its occasions. -/
theorem asked_of_pass {grace : Nat} {o : Outcome σ} (ho : pass ask grace scene = .ok o) :
    o.asked = (passOccasions ask grace scene).map (·.node.id) := by
  obtain ⟨ns, hns, rfl⟩ := visit_of_pass ho
  rw [passOccasions_of_probed ask grace hns]
  exact asked_eq_map_occasions ask grace ns scene

/-! ### Other probers -/

theorem visit_congr {ask' : Prober σ} {grace : Nat}
    (h : ∀ x ∈ occasions ask grace ns scene, ask' x.node x.scene = ask x.node x.scene) :
    visit ask' grace ns scene = visit ask grace ns scene := by
  induction ns generalizing scene with
  | nil => rfl
  | cons n ns ih =>
    have hn : ask' n scene = ask n scene := h ⟨n, scene⟩ List.mem_cons_self
    rcases hask : ask n scene with ⟨_ | outcome, scene'⟩
    · rw [(visit_interrupted grace ns hask).1, (visit_interrupted grace ns (hn.trans hask)).1]
    · cases hgo : (onOutcome grace n outcome scene'.readings scene'.backing).stopped with
      | true => rw [(visit_stopped ns hask hgo).1, (visit_stopped ns (hn.trans hask) hgo).1]
      | false =>
        rw [occasions_cons hask hgo] at h
        rw [visit_cons hask hgo, visit_cons (hn.trans hask) hgo]
        dsimp only
        rw [ih fun x hx => h x (List.mem_cons_of_mem _ hx)]

/-- Two probers that agree on the occasions of a pass come to the same. -/
theorem pass_congr {ask' : Prober σ} {grace : Nat}
    (h : ∀ x ∈ passOccasions ask grace scene, ask' x.node x.scene = ask x.node x.scene) :
    pass ask' grace scene = pass ask grace scene := by
  cases hns : nodesWithStatus scene.backing.store probedStatuses with
  | error e =>
    rw [pass, pass, hns]
    rfl
  | ok ns =>
    rw [passOccasions_of_probed ask grace hns] at h
    rw [pass_of_probed grace hns, pass_of_probed grace hns, visit_congr h]

end Visits

/-! ## Calm probers -/

section Calm

variable {σ : Type} {clock clock' : Instant → Prop} {ask : Prober σ}

/-- Whether asking leaves the store alone and the clock shows none but times of a kind. -/
structure Occasion.Calm (clock : Instant → Prop) (ask : Prober σ) (x : Occasion σ) : Prop where
  backing : (ask x.node x.scene).2.backing = x.scene.backing
  readings : (ask x.node x.scene).2.readings.Both clock

/-- Whether asking is calm on all occasions of a pass. -/
def Calm (clock : Instant → Prop) (ask : Prober σ) (grace : Nat) (scene : Scene σ) : Prop :=
  ∀ x ∈ passOccasions ask grace scene, x.Calm clock ask

theorem Calm.mono {grace : Nat} {scene : Scene σ} (h : Calm clock ask grace scene)
    (hc : ∀ t, clock t → clock' t) : Calm clock' ask grace scene :=
  fun x hx => ⟨(h x hx).backing, (h x hx).readings.mono hc⟩

end Calm

end ControlPlane.Detector
