import ControlPlane.Api.Identifier
import ControlPlane.Proofs.Api.Decision
import ControlPlane.Proofs.Api.Service
import ControlPlane.Proofs.Detector.Pass
import ControlPlane.Proofs.Registry.Shows

/-!
# Whole runs

Requests and passes of the detector, one after the other, on a store that begins empty and works.
However they follow each other, every record stays readable under its own id, so no request ends in
an internal error and no pass fails (`Run.sound`). The clock may do what it likes, as long as it
stays below the last instant by more than a microsecond for each operation: only there a stamp might
find no later time.
-/

namespace ControlPlane

open Api (Command Service Settings)
open Detector (Prober Scene Steady)

/-- The runs of the control plane on a store that began empty, with the number of operations in
them. The clock shows no time past the limit. -/
inductive Run (settings : Settings) (limit : Int) : Nat → Service → Prop
  /-- The store is empty. -/
  | start {b : Backing} : b.store.Healthy b.disk → b.store.data = .empty →
      Run settings limit 0 ⟨b, 0⟩
  /-- A request is dealt with. -/
  | request {k : Nat} {s : Service} {now : Instant} (requestId : String) (r : Http.Request) :
      Run settings limit k s → now.inRange = true → now.ticks ≤ limit →
      Run settings limit (k + 1) (s.respond settings now requestId r).2
  /-- The detector makes a pass. -/
  | tick {k : Nat} {s : Service} {σ : Type} {ask : Prober σ} {grace : Nat} {scene : Scene σ}
      {o : Detector.Outcome σ} : Run settings limit k s → scene.backing = s.backing →
      Steady limit ask grace scene → Detector.pass ask grace scene = .ok o →
      Run settings limit (k + 1) { s with backing := o.scene.backing }

variable {settings : Settings} {limit : Int} {k : Nat} {s : Service}

theorem Detector.Steady.mono {σ : Type} {limit' : Int} {ask : Prober σ} {grace : Nat}
    {scene : Scene σ} (h : Steady limit ask grace scene) (hl : limit ≤ limit') :
    Steady limit' ask grace scene :=
  Calm.mono h fun _ ht => ⟨ht.1, ht.2.trans hl⟩

/-- Each operation leaves room for a later stamp. -/
theorem room_succ {now : Instant} (hi : now.inRange = true) (hc : now.ticks ≤ limit)
    (hk : limit + 1000 * (k + 1 : Nat) ≤ Instant.lastTick) (id : String) :
    Room (fun _ => limit + 1000 * k) (fun _ => limit + 1000 * (k + 1 : Nat)) id now := by
  exact ⟨hi, by omega, by omega, hk⟩

/-- Every run keeps the store sound. -/
theorem Run.backing_sound (h : Run settings limit k s)
    (hk : limit + 1000 * k ≤ Instant.lastTick) :
    s.backing.Sound fun _ => limit + 1000 * k := by
  induction h with
  | start hhealthy hempty =>
    refine ⟨hhealthy, ?_⟩
    rw [hempty]
    exact .empty _
  | @request k s now requestId r _ hi hc ih =>
    have ih := ih (by omega)
    exact (Service.respond_spec ih (fun _ => by omega) (room_succ hi hc hk) settings requestId r).2
  | @tick k s σ ask grace scene o _ hbacking hsteady hpass ih =>
    have ih := ih (by omega)
    rw [← hbacking] at ih
    obtain ⟨o', ho, -, hsound⟩ := Detector.pass_spec (limit + 1000 * k) (by omega) ih
      (hsteady.mono (by omega))
    obtain rfl : o' = o := Except.ok.inj (ho.symm.trans hpass)
    exact hsound.mono fun _ => by omega

/-- Every record of a run is readable under its own id, so every list succeeds, no request ends in
an internal error and every pass comes to its end. -/
theorem Run.sound (h : Run settings limit k s) (hk : limit + 1000 * k ≤ Instant.lastTick) :
    (∀ e ∈ s.backing.store.data.entries, ∃ id, id ≠ "" ∧
      (e.1 = "node:" ++ id ∧ (∃ n, Node.codec.ofBytes e.2 = .ok n ∧ n.id = id) ∨
        e.1 = "model:" ++ id ∧ (∃ m, Model.codec.ofBytes e.2 = .ok m ∧ m.id = id) ∨
        e.1 = "replica:" ++ id ∧ ∃ r, Replica.codec.ofBytes e.2 = .ok r ∧ r.id = id)) ∧
    (∃ ns, nodes.list s.backing.store = .ok ns) ∧
    (∃ ms, models.list s.backing.store = .ok ms) ∧
    (∃ rs, replicas.list s.backing.store = .ok rs) ∧
    (limit + 1000 * (k + 1 : Nat) ≤ Instant.lastTick →
      (∀ (now : Instant) requestId r, now.inRange = true → now.ticks ≤ limit →
        ∃ response, (s.respond settings now requestId r).1 = some response ∧
          response.status ≠ 500) ∧
      ∀ (σ : Type) (ask : Prober σ) grace (scene : Scene σ), scene.backing = s.backing →
        Steady limit ask grace scene →
        ∃ o, Detector.pass ask grace scene = .ok o ∧ o.ending ≠ .noLaterTime) := by
  have hs := h.backing_sound hk
  refine ⟨fun e he => ?_, ?_, ?_, ?_, fun hk' => ⟨fun now requestId r hi hc => ?_,
    fun σ ask grace scene hbacking hsteady => ?_⟩⟩
  · rcases hs.data e he with ⟨a, hd, hne, hkey, -⟩ | ⟨a, hd, hne, hkey, -⟩ | ⟨a, hd, hne, hkey, -⟩
    · exact ⟨a.id, hne, .inl ⟨hkey, a, hd, rfl⟩⟩
    · exact ⟨a.id, hne, .inr (.inl ⟨hkey, a, hd, rfl⟩)⟩
    · exact ⟨a.id, hne, .inr (.inr ⟨hkey, a, hd, rfl⟩)⟩
  · obtain ⟨ns, hns, -⟩ := Registry.list_spec hs.data.keeps_nodes
    exact ⟨ns, hns⟩
  · obtain ⟨ms, hms, -⟩ := Registry.list_spec hs.data.keeps_models
    exact ⟨ms, hms⟩
  · obtain ⟨rs, hrs, -⟩ := Registry.list_spec hs.data.keeps_replicas
    exact ⟨rs, hrs⟩
  · exact (Service.respond_spec hs (fun _ => by omega) (room_succ hi hc hk') settings requestId r).1
  · rw [← hbacking] at hs
    obtain ⟨o, ho, hending, -⟩ := Detector.pass_spec (limit + 1000 * k) (by omega) hs
      (hsteady.mono (by omega))
    exact ⟨o, ho, hending⟩

/-! ### A run of one node -/

/-- A registration of a node. -/
def Api.registration : Http.Request :=
  ⟨.post, "/api/nodes", some "application/json",
    utf8 "\x7b\"name\": \"n\", \"ip\": \"10.0.0.1\", \"port\": 80\x7d"⟩

/-- A request for the first node that is registered. -/
def Api.firstNode : Http.Request :=
  ⟨.get, "/api/nodes/00000000-0000-4000-8000-000000000000", none, []⟩

theorem Api.ofPath?_firstNode :
    Api.Route.ofPath? "/api/nodes/00000000-0000-4000-8000-000000000000" =
      some (.node "00000000-0000-4000-8000-000000000000") := by
  decide +kernel

theorem Api.readId_firstNode :
    Api.readId "00000000-0000-4000-8000-000000000000" = .ok (Api.numberedId 0) := by
  have hid : Http.unescapeText? "00000000-0000-4000-8000-000000000000" =
      some (Api.numberedId 0) := by decide +kernel
  rw [Api.readId, hid]

theorem Api.ofRequest_firstNode :
    Command.ofRequest Api.firstNode = .ok (.getNode (Api.numberedId 0)) := by
  have hpath : Api.firstNode.path = "/api/nodes/00000000-0000-4000-8000-000000000000" := by
    decide +kernel
  rw [Command.ofRequest_of_path hpath Api.ofPath?_firstNode]
  dsimp only [Command.onRoute, Api.firstNode]
  rw [Api.readId_firstNode]
  rfl

/-- A new control plane takes the registration at the beginning of time. -/
def Api.afterRegistration : Option Http.Response × Service :=
  Service.respond ⟨.refreshHeartbeat, Api.numberedId⟩ ⟨0, 0⟩ "r" Api.registration
    ⟨⟨.volatile .new, {}⟩, 0⟩

/-- Asks nodes of which all answer a second later or none does. The clock goes on until their
records are stamped. -/
def Detector.askLater (answers : Bool) : Prober Unit := fun n scene =>
  (some (if answers then .ok ⟨n.id, true, []⟩ else .error (.noAddress n.id)),
    { scene with readings := ⟨⟨1, 0⟩, ⟨1, 500⟩⟩ })

/-- A node is registered and answers in the pass after that. Its record is readable under its id, it
can be listed, a request for it is answered with it, and no request is an internal error. -/
theorem Run.sound_registration : ∃ (a : Http.Response) (s : Service) (o : Detector.Outcome Unit),
    Api.afterRegistration = (some a, s) ∧ a.status = 200 ∧
    Detector.pass (Detector.askLater true) 0 ⟨s.backing, (⟨0, 0⟩ : Instant), ()⟩ = .ok o ∧
    o.ending ≠ .noLaterTime ∧ o.asked = [Api.numberedId 0] ∧
    Run ⟨.refreshHeartbeat, Api.numberedId⟩ 2000000000 2 { s with backing := o.scene.backing } ∧
    2000000000 + 1000 * (2 : Nat) ≤ Instant.lastTick ∧
    (∃ e ∈ o.scene.backing.store.data.entries, e.1 = "node:" ++ Api.numberedId 0 ∧
      ∃ n, Node.codec.ofBytes e.2 = .ok n ∧ n.id = Api.numberedId 0) ∧
    (∃ ns, nodes.list o.scene.backing.store = .ok ns) ∧
    (∃ n, n.id = Api.numberedId 0 ∧ n.status = .online ∧
      (Service.respond ⟨.refreshHeartbeat, Api.numberedId⟩ ⟨2, 0⟩ "r" Api.firstNode
        { s with backing := o.scene.backing }).1 =
          some ⟨200, some "application/json", none, (Node.codec.write n).toBytes⟩) ∧
    ∀ requestId r, ∃ answer, (Service.respond ⟨.refreshHeartbeat, Api.numberedId⟩ ⟨2, 0⟩ requestId
      r { s with backing := o.scene.backing }).1 = some answer ∧ answer.status ≠ 500 := by
  have registered : Api.afterRegistration.1.map (·.status) = some 200 := by decide +kernel
  have passed : ((Detector.pass (Detector.askLater true) 0 ⟨Api.afterRegistration.2.backing,
      (⟨0, 0⟩ : Instant), ()⟩).toOption.map fun o =>
        (o.asked, o.scene.backing.store.data.entries.map (·.1),
          (nodes.require o.scene.backing.store (Api.numberedId 0)).toOption.map fun n =>
            (n.id, n.status))) =
      some ([Api.numberedId 0], ["node:" ++ Api.numberedId 0],
        some (Api.numberedId 0, .online)) := by
    decide +kernel
  have start : Run ⟨.refreshHeartbeat, Api.numberedId⟩ 2000000000 0 ⟨⟨.volatile .new, {}⟩, 0⟩ :=
    .start rfl rfl
  have first := Run.request "r" Api.registration start
    (show (⟨0, 0⟩ : Instant).inRange = true by decide) (by decide)
  have times : (⟨⟨1, 0⟩, ⟨1, 500⟩⟩ : Detector.Readings).Both
      fun t => t.inRange = true ∧ t.ticks ≤ 2000000000 := ⟨by decide, by decide⟩
  have steady : Steady 2000000000 (Detector.askLater true) 0
      ⟨Api.afterRegistration.2.backing, (⟨0, 0⟩ : Instant), ()⟩ := fun _ _ => ⟨rfl, times⟩
  obtain ⟨-, -, -, -, hnext⟩ := Run.sound first (by decide)
  obtain ⟨o, ho, hending⟩ := (hnext (by decide)).2 Unit (Detector.askLater true) 0 _ rfl steady
  rw [ho] at passed
  obtain ⟨hasked, hrest⟩ := Prod.mk.inj (Option.some.inj passed)
  obtain ⟨hkeys, hfound⟩ := Prod.mk.inj hrest
  have second := Run.tick first rfl steady ho
  have last : 2000000000 + 1000 * (2 : Nat) ≤ Instant.lastTick := by decide
  obtain ⟨hrecords, hlist, -, -, hnext⟩ := Run.sound second last
  obtain ⟨a, ha, hstatus⟩ := Option.map_eq_some_iff.1 registered
  refine ⟨a, Api.afterRegistration.2, o, congrArg (·, Api.afterRegistration.2) ha, hstatus, ho,
    hending, hasked, second, last, ?_, hlist, ?_, fun requestId r =>
      (hnext (by decide)).1 ⟨2, 0⟩ requestId r (by decide) (by decide)⟩
  · obtain ⟨e, he, hkey⟩ := List.map_eq_singleton_iff.1 hkeys
    have hmem : e ∈ o.scene.backing.store.data.entries := he ▸ List.mem_singleton_self _
    have hkey : e.1 = nodes.key (Api.numberedId 0) := hkey
    refine ⟨e, hmem, hkey, ?_⟩
    obtain ⟨id, -, ⟨hid, n, hn, hown⟩ | ⟨hid, -⟩ | ⟨hid, -⟩⟩ := hrecords e hmem
    · obtain rfl := Registry.key_inj (r := nodes) (hkey.symm.trans hid)
      exact ⟨n, hn, hown⟩
    · exact absurd (hkey.symm.trans hid) (Registry.nodes_apart_models _ _)
    · exact absurd (hkey.symm.trans hid) (Registry.nodes_apart_replicas _ _)
  · obtain ⟨n, hn, hnode⟩ := Option.map_eq_some_iff.1 hfound
    obtain ⟨hid, honline⟩ := Prod.mk.inj hnode
    refine ⟨n, hid, honline, ?_⟩
    rw [Service.respond_getNode Api.ofRequest_firstNode nofun (Except.toOption_eq_some.1 hn)]

end ControlPlane
