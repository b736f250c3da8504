import ControlPlane.Proofs.Api.Decision
import ControlPlane.Proofs.Api.Service
import ControlPlane.Proofs.Registry.Shows

/-!
# Well-formed stores

A store is well-formed if it holds nothing but nodes, models and replicas, each under its own id.
Whatever requests come and whenever they come, a store that works goes on working and stays
well-formed (`Service.Reaches.wellFormed`). No room for later stamps is asked for: where there is
none, nothing is written.
-/

namespace ControlPlane

theorem Fair.yields {β : Type} {Q : β → Prop} {x : Except RegistryError β} (h : Fair Q x) :
    x.Yields Q := by
  intro b hb
  rcases h with ⟨e, rfl, -⟩ | ⟨c, rfl, hc⟩
  · cases hb
  · exact Except.ok.inj hb ▸ hc

/-! ## Maps -/

/-- Whether all entries of a map are nodes, models and replicas under their own ids. -/
def KeyMap.WellFormed (m : KeyMap) : Prop :=
  ∀ e ∈ m.entries, nodes.Holds (fun _ => True) e ∨ models.Holds (fun _ => True) e ∨
    replicas.Holds (fun _ => True) e

/-- A bound of all stamps, in nanoseconds. -/
def Instant.farthest : Int := lastTick + second

theorem Instant.ticks_le_farthest {t : Instant} (h : t.inRange = true) : t.ticks ≤ farthest := by
  obtain ⟨-, hu, hn⟩ := inRange_iff.1 h
  unfold farthest lastTick ticks second at *
  omega

theorem Node.Fits.stampedBy_farthest {n : Node} (h : n.Fits) : n.StampedBy Instant.farthest :=
  fun t ht => Instant.ticks_le_farthest (h.updatedAt t ht)

/-- A well-formed map is sound, since a stamp that was read lies within the calendar. -/
theorem KeyMap.WellFormed.toSound {m : KeyMap} (h : m.WellFormed) :
    m.Sound fun _ => Instant.farthest := by
  intro e he
  refine (h e he).imp_left ?_
  rintro ⟨n, hn, hne, hk, -⟩
  exact ⟨n, hn, hne, hk, (Node.fits_iff.1 (nodes.laws.fits_of_ofBytes hn)).stampedBy_farthest⟩

theorem KeyMap.Sound.wellFormed {bound : String → Int} {m : KeyMap} (h : m.Sound bound) :
    m.WellFormed := by
  intro e he
  exact (h e he).imp_left fun hn => hn.mono fun _ _ => trivial

/-! ## Stamps -/

/-- A stamp that is found lies within the calendar. -/
theorem nextStamp_yields {now : Instant} {previous : Option Instant} (hn : now.inRange = true) :
    (nextStamp now previous).Yields fun t => t.inRange = true := by
  intro stamp h
  unfold nextStamp at h
  split at h
  · exact Except.ok.inj h ▸ hn
  · split at h
    · exact Except.ok.inj h ▸ hn
    · split at h
      · rename_i u hu
        obtain rfl := Except.ok.inj h
        unfold Instant.plus? at hu
        dsimp only at hu
        split at hu
        · rename_i hr
          exact Option.some.inj hu ▸ hr
        · cases hu
      · cases h

namespace Node

variable {s : Store} {now : Instant} {id : String}

/-- Writing a node whose times are those of the calendar. -/
theorem Fits.sound_write {n : Node} (hf : n.Fits) (hid : n.id = id) (hne : id ≠ "") :
    (nodes.write id n).Sound fun _ => Instant.farthest :=
  Node.sound_write hf hid hne hf.stampedBy_farthest

/-- A map with a node and nothing else. -/
theorem Fits.wellFormed_alone {n : Node} (hf : n.Fits) (hid : n.id = id) (hne : id ≠ "") :
    ((nodes.write id n).apply .empty).WellFormed :=
  ((KeyMap.Sound.empty _).apply (hf.sound_write hid hne)).wellFormed

theorem update_yields {n : Node} (h : s.data.WellFormed) (hnow : now.inRange = true)
    (hf : n.Fits) : (Node.update s now id n).Yields (Change.Sound fun _ => Instant.farthest) := by
  refine (nodes.stamp_spec id n).yields.bind ?_
  rintro n' ⟨hid, rfl⟩
  have hf : Fits { n with id := id } := ⟨hf.1, hf.2, hf.3, hf.4, hf.5⟩
  refine (Registry.get_spec nodes.laws h.toSound.keeps_nodes id).yields.bind ?_
  rintro o ⟨-, ho⟩
  cases o with
  | none => exact .pure ((hf.updated hnow).sound_write rfl hid)
  | some older =>
    obtain ⟨-, -, hfo⟩ := ho older rfl
    refine (nextStamp_yields hnow).bind fun stamp hs => .pure ?_
    exact ((hf.inheriting (fits_iff.1 hfo)).updated hs).sound_write rfl hid

theorem setStatus_yields (h : s.data.WellFormed) (hnow : now.inRange = true)
    (policy : StatusPolicy) (status : NodeStatus) :
    (Node.setStatus s now policy id status).Yields
      (Change.Sound fun _ => Instant.farthest) := by
  refine (require_fair h.toSound id).yields.bind ?_
  rintro n ⟨hne, hid, -, hf⟩
  refine (nextStamp_yields hnow).bind fun stamp hs => .pure ?_
  exact (hf.withStatus hs status policy).sound_write hid hne

end Node

namespace Api

/-! ## Commands -/

theorem applyPatch_yields {s : Store} {now : Instant} (h : s.data.WellFormed)
    (hnow : now.inRange = true) {patch : NodePatch}
    (hp : ∀ n : Node, n.Fits → (patch.apply n).Fits) (id : String) :
    (applyPatch s now id patch).Yields (Change.Sound fun _ => Instant.farthest) := by
  refine (Node.require_fair h.toSound id).yields.bind ?_
  rintro n ⟨-, -, -, hf⟩
  exact Node.update_yields h hnow (hp n hf)

/-- What a command comes to keeps a store well-formed. -/
theorem Command.decide_yields {s : Store} {now : Instant} (h : s.data.WellFormed)
    (hnow : now.inRange = true) {c : Command} (hc : c.Fits) (policy : StatusPolicy)
    (fresh : String) :
    (c.decide policy now fresh s).Yields (Decision.Sound fun _ => Instant.farthest) := by
  cases c with
  | health => exact .pure trivial
  | listNodes | getNode id | listModels | getModel id | getReplica id =>
    exact .bind .any fun _ _ => .pure trivial
  | listReplicas modelId => cases modelId <;> exact .bind .any fun _ _ => .pure trivial
  | registerNode form =>
    have hclock := Instant.ticks_le_farthest hnow
    exact (Node.register_fair hnow hclock (hc fresh)).yields.bind fun _ hs => .pure hs
  | patchNode id patch => exact (applyPatch_yields h hnow hc id).bind fun _ hs => .pure hs
  | setNodeStatus id status =>
    exact (Node.setStatus_yields h hnow policy status).bind fun _ hs => .pure hs
  | removeNode id => exact (nodes.remove_fair id).yields.bind fun _ hs => .pure hs
  | addModel m =>
    have hf : models.laws.Fits { m with id := fresh } := models.laws.fits_withId hc
    exact (Model.put_fair hf fresh).yields.bind fun _ hs => .pure hs
  | putModel id m => exact (Model.put_fair hc id).yields.bind fun _ hs => .pure hs
  | removeModel id => exact (models.remove_fair id).yields.bind fun _ hs => .pure hs
  | addReplica r => exact (Replica.put_fair hc _).yields.bind fun _ hs => .pure hs
  | putReplica id r => exact (Replica.put_fair hc id).yields.bind fun _ hs => .pure hs
  | removeReplica id => exact (replicas.remove_fair id).yields.bind fun _ hs => .pure hs

/-! ## Requests -/

namespace Service

variable {settings : Settings} {s s' : Service} {now : Instant}

/-- What becomes of a service through any number of requests, each at a time of the calendar. -/
inductive Reaches (settings : Settings) (s : Service) : Service → Prop
  | start : Reaches settings s s
  | answered {t : Service} {now : Instant} (requestId : String) (r : Http.Request) :
      Reaches settings s t → now.inRange = true →
      Reaches settings s (t.respond settings now requestId r).2

/-- A request keeps a store that works at work and well-formed. -/
theorem respond_wellFormed (hw : s.backing.Works) (h : s.backing.store.data.WellFormed)
    (hnow : now.inRange = true) (requestId : String) (r : Http.Request) :
    (s.respond settings now requestId r).2.backing.Works ∧
      (s.respond settings now requestId r).2.backing.store.data.WellFormed := by
  obtain ⟨reply, hdeals, -⟩ := deals_respond settings now requestId r s
  generalize (s.respond settings now requestId r).2 = s' at hdeals
  -- A change that is decided on has a key, so the store makes it.
  have carried : ∀ {c : Command} {change : Change} {body : Json} {named : Bool}
      {e : Option StoreError} {b : Backing}, Command.ofRequest r = .ok c →
      c.decide settings.policy now (settings.ids s.issued) s.backing.store =
        .ok (.make change body named) → s.backing.commit change = (e, b) →
      b.Works ∧ b.store.data.WellFormed := by
    intro c change body named e b read decided commit
    have hsound : change.Sound fun _ => Instant.farthest :=
      Command.decide_yields h hnow (Command.fits_ofRequest read) settings.policy _ _ decided
    obtain ⟨b', hc, hworks, hdata⟩ := hw.commit hsound.key_ne
    obtain ⟨-, rfl⟩ := Prod.mk.inj (commit.symm.trans hc)
    refine ⟨hworks, ?_⟩
    rw [hdata]
    exact (h.toSound.apply hsound).wellFormed
  cases hdeals with
  | refused | failed | told => exact ⟨hw, h⟩
  | made read decided commit => exact carried read decided commit
  | unmade read decided commit => exact carried read decided commit

/-- So does any number of requests. -/
theorem Reaches.wellFormed (hr : Reaches settings s s') (hw : s.backing.Works)
    (h : s.backing.store.data.WellFormed) :
    s'.backing.Works ∧ s'.backing.store.data.WellFormed := by
  induction hr with
  | start => exact ⟨hw, h⟩
  | answered requestId r _ hnow ih =>
    obtain ⟨hw', h'⟩ := ih
    exact respond_wellFormed hw' h' hnow requestId r

end Service

end Api

end ControlPlane
