import ControlPlane.Proofs.Life.Contacts
import ControlPlane.Proofs.Run

/-!
# Chronicles

A chronicle is a run of requests and passes of the detector on a store that began empty, together
with the lives of the nodes in it (`Chronicle`). At its end the nodes have the records that their
lives tell (`Chronicle.kept`).
-/

namespace ControlPlane

open Api (Command Service Settings)

variable {clock : Instant → Prop} {lives : Lives}

/-! ## Instants up to a limit -/

namespace Instant

/-- Whether an instant lies in the calendar up to a limit, and in no leap second. -/
structure Ordinary (limit : Int) (t : Instant) : Prop where
  inRange : t.inRange = true
  isLeap : t.isLeap = false
  le : t.ticks ≤ limit

theorem Ordinary.genuine {limit : Int} {t : Instant} (h : t.Ordinary limit) : t.Genuine :=
  ⟨h.inRange, fun hl => by rw [h.isLeap] at hl; cases hl⟩

end Instant

/-! ## Chronicles -/

open Detector (Prober Scene Calm)

/-- The runs of requests and passes on a store that began empty, with the number of operations in
them and the lives of the nodes at their end. The clock shows none but times of a kind. -/
inductive Chronicle (settings : Settings) (clock : Instant → Prop) : Nat → Lives → Service → Prop
  /-- The store is empty. -/
  | start {b : Backing} : b.Works → b.store.data = .empty →
      Chronicle settings clock 0 (fun _ => none) ⟨b, 0⟩
  /-- A request is dealt with. -/
  | request {k : Nat} {lives : Lives} {s s' : Service} {now : Instant} {requestId : String}
      {r : Http.Request} {response : Option Http.Response} : Chronicle settings clock k lives s →
      clock now → s.respond settings now requestId r = (response, s') →
      Chronicle settings clock (k + 1)
        (lives.afterRequest (settings.ids s.issued) now r response) s'
  /-- The detector makes a pass. -/
  | tick {k : Nat} {lives : Lives} {s : Service} {σ : Type} {ask : Prober σ} {grace : Nat}
      {scene : Scene σ} {o : Detector.Outcome σ} : Chronicle settings clock k lives s →
      scene.backing = s.backing → Calm clock ask grace scene →
      Detector.pass ask grace scene = .ok o →
      Chronicle settings clock (k + 1)
        (lives.afterContacts grace (Detector.passContacts ask grace scene))
        { s with backing := o.scene.backing }

namespace Chronicle

variable {settings : Settings} {k : Nat} {s : Service}

/-- The nodes have the records that their lives tell. -/
theorem kept (h : Chronicle settings clock k lives s) (hclock : ∀ t, clock t → t.Genuine) :
    lives.Kept settings.policy s.backing := by
  induction h with
  | start hworks hempty =>
    refine ⟨hworks, ?_, nofun⟩
    rw [hempty]
    exact .empty _
  | request _ hnow hr ih => exact ih.respond (hclock _ hnow) hr
  | tick _ hbacking hs ho ih =>
    rw [← hbacking] at ih
    exact Detector.kept_pass hclock ih hs ho

/-- What holds of every new life and goes on to hold, whatever is done, holds of all lives. -/
theorem all {Q : Life → Prop} (h : Chronicle settings clock k lives s)
    (hfirst : ∀ form t, clock t → Q (.registered form t))
    (hstep : ∀ life t deed, clock t → deed.Shows clock → Q life → Q (.continued life t deed)) :
    lives.All Q := by
  induction h with
  | start => exact nofun
  | request _ hnow _ ih =>
    exact ih.afterRequest (fun form => hfirst form _ hnow) (fun life deed => hstep life _ deed hnow)
      _ _ _
  | tick _ _ hs _ ih =>
    refine ih.afterContacts fun c hc life => ?_
    have hshown := hs.readings_of_mem hc
    exact hstep life _ _ hshown.stamping (c.shows_deed hshown.ended)

theorem mono {clock' : Instant → Prop} (h : Chronicle settings clock k lives s)
    (hc : ∀ t, clock t → clock' t) : Chronicle settings clock' k lives s := by
  induction h with
  | start hworks hempty => exact .start hworks hempty
  | request _ hnow hr ih => exact ih.request (hc _ hnow) hr
  | tick _ hbacking hs ho ih => exact ih.tick hbacking (hs.mono hc) ho

/-- Without the lives a chronicle is a run. -/
theorem run {limit : Int} (h : Chronicle settings clock k lives s)
    (hclock : ∀ t, clock t → t.inRange = true ∧ t.ticks ≤ limit) : Run settings limit k s := by
  induction h with
  | start hworks hempty => exact .start hworks.healthy hempty
  | request _ hnow hr ih =>
    obtain rfl := congrArg Prod.snd hr
    exact .request _ _ ih (hclock _ hnow).1 (hclock _ hnow).2
  | tick _ hbacking hs ho ih => exact .tick ih hbacking (hs.mono hclock) ho

/-- A pass succeeds and finds later times, as long as the clock stays away from the last instant. -/
theorem exists_pass {limit : Int} (h : Chronicle settings clock k lives s)
    (hclock : ∀ t, clock t → t.inRange = true ∧ t.ticks ≤ limit)
    (hk : limit + 1000 * (k + 1 : Nat) ≤ Instant.lastTick) {σ : Type} {ask : Prober σ}
    {grace : Nat} {scene : Scene σ} (hbacking : scene.backing = s.backing)
    (hs : Calm clock ask grace scene) :
    ∃ o, Detector.pass ask grace scene = .ok o ∧ o.ending ≠ .noLaterTime := by
  have hsound := (h.run hclock).backing_sound (by omega)
  have hsteady : Detector.Steady limit ask grace scene := hs.mono hclock
  rw [← hbacking] at hsound
  obtain ⟨o, ho, hending, -⟩ := Detector.pass_spec (limit + 1000 * k) (by omega) hsound
    (hsteady.mono (by omega))
  exact ⟨o, ho, hending⟩

end Chronicle

/-! ### A run of one node -/

/-- What a registration asks for. -/
def Api.registered : Api.NodeForm :=
  ⟨"n", "10.0.0.1", 80, {}, {}, {}, []⟩

theorem Api.ofRequest_registration :
    Command.ofRequest Api.registration = .ok (.registerNode Api.registered) := by
  have hpath : Api.registration.path = "/api/nodes" := by decide +kernel
  have hroute : Api.Route.ofPath? "/api/nodes" = some .nodes := by decide +kernel
  have hbody : Api.readBody Api.NodeForm.codec Api.registration = .ok Api.registered := by rfl
  rw [Command.ofRequest_of_path hpath hroute]
  show (Api.readBody Api.NodeForm.codec Api.registration >>= fun form => _) = _
  rw [hbody]
  rfl

/-- A node is registered on a new store. -/
theorem Chronicle.exists_registration :
    ∃ lives, Chronicle ⟨.refreshHeartbeat, Api.numberedId⟩ (Instant.Ordinary 2000000000) 1 lives
        Api.afterRegistration.2 ∧
      lives (Api.numberedId 0) = some (.registered Api.registered ⟨0, 0⟩) := by
  have hnow : Instant.Ordinary 2000000000 ⟨0, 0⟩ := ⟨rfl, rfl, by decide⟩
  have hworks : (⟨.volatile .new, {}⟩ : Backing).Works := ⟨trivial, rfl⟩
  have hstart : Chronicle ⟨.refreshHeartbeat, Api.numberedId⟩ (Instant.Ordinary 2000000000) 0
      (fun _ => none) ⟨⟨.volatile .new, {}⟩, 0⟩ := .start hworks rfl
  have hkept : Lives.Kept .refreshHeartbeat (fun _ => none) ⟨.volatile .new, {}⟩ :=
    ⟨hworks, .empty _, nofun⟩
  have hr : Service.respond ⟨.refreshHeartbeat, Api.numberedId⟩ ⟨0, 0⟩ "r" Api.registration
      ⟨⟨.volatile .new, {}⟩, 0⟩ = (Api.afterRegistration.1, Api.afterRegistration.2) := rfl
  have h := hstart.request hnow hr
  rw [hkept.afterRequest_registerNode hnow.genuine (Api.numberedId_ne_empty 0)
    Api.ofRequest_registration hr] at h
  exact ⟨_, h, Function.update_self _ _ _⟩

/-- A request that gives the first node another address. -/
def Api.firstPatch : Http.Request :=
  ⟨.patch, "/api/nodes/00000000-0000-4000-8000-000000000000", some "application/json",
    utf8 "\x7b\"ip\": \"10.0.0.2\"\x7d"⟩

theorem Api.ofRequest_firstPatch : Command.ofRequest Api.firstPatch =
    .ok (.patchNode (Api.numberedId 0) { ip := some "10.0.0.2" }) := by
  have hpath : Api.firstPatch.path = "/api/nodes/00000000-0000-4000-8000-000000000000" := by
    decide +kernel
  have hbody : Api.readBody NodePatch.codec Api.firstPatch = .ok { ip := some "10.0.0.2" } := by
    rfl
  rw [Command.ofRequest_of_path hpath Api.ofPath?_firstNode]
  show (Api.readId _ >>= fun id => Api.readBody NodePatch.codec Api.firstPatch >>= _) = _
  rw [Api.readId_firstNode, hbody]
  rfl

/-- The node that was registered gets another address. -/
theorem Chronicle.exists_patched :
    ∃ lives a s, Service.respond ⟨.refreshHeartbeat, Api.numberedId⟩ ⟨0, 500⟩ "r" Api.firstPatch
        Api.afterRegistration.2 = (some a, s) ∧ a.status = 200 ∧
      Chronicle ⟨.refreshHeartbeat, Api.numberedId⟩ (Instant.Ordinary 2000000000) 2 lives s ∧
      lives (Api.numberedId 0) = some (.continued (.registered Api.registered ⟨0, 0⟩) ⟨0, 500⟩
        (.patched { ip := some "10.0.0.2" })) := by
  have hnow : Instant.Ordinary 2000000000 ⟨0, 500⟩ := ⟨rfl, rfl, by decide⟩
  obtain ⟨lives, h, hl⟩ := exists_registration
  rcases hr : Service.respond ⟨.refreshHeartbeat, Api.numberedId⟩ ⟨0, 500⟩ "r" Api.firstPatch
    Api.afterRegistration.2 with ⟨response, s⟩
  have hstamp : (Life.registered Api.registered ⟨0, 0⟩).stamp.before ⟨0, 500⟩ = true := by decide
  obtain ⟨⟨a, rfl, hstatus⟩, hafter⟩ := (h.kept fun _ ht => ht.genuine).afterRequest_patchNode
    hnow.genuine hl hstamp Api.ofRequest_firstPatch hr
  have h := h.request hnow hr
  rw [hafter, Lives.goOn_of_some hl] at h
  exact ⟨_, a, s, rfl, hstatus, h, Function.update_self _ _ _⟩

/-- A node that is to be asked answers in the next pass. -/
theorem Chronicle.exists_answered {settings : Settings} {k : Nat} {s : Service}
    (h : Chronicle settings (Instant.Ordinary 2000000000) k lives s)
    (hk : 2000000000 + 1000 * (k + 1 : Nat) ≤ Instant.lastTick) (now : Instant) {id : String}
    {life : Life} (hl : lives id = some life)
    (hstatus : life.status settings.policy ∈ Detector.probedStatuses) :
    ∃ o lives', Detector.pass (Detector.askLater true) 0 ⟨s.backing, now, ()⟩ = .ok o ∧
      Chronicle settings (Instant.Ordinary 2000000000) (k + 1) lives'
        { s with backing := o.scene.backing } ∧
      lives' id = some (.continued life ⟨1, 500⟩ (.answered ⟨1, 0⟩)) := by
  have hnow : (⟨⟨1, 0⟩, ⟨1, 500⟩⟩ : Detector.Readings).Both (Instant.Ordinary 2000000000) :=
    ⟨⟨rfl, rfl, by decide⟩, rfl, rfl, by decide⟩
  have hs : Calm (Instant.Ordinary 2000000000) (Detector.askLater true) 0 ⟨s.backing, now, ()⟩ :=
    fun _ _ => ⟨rfl, hnow⟩
  obtain ⟨o, ho, hending⟩ := h.exists_pass (fun _ ht => ⟨ht.inRange, ht.le⟩) hk rfl hs
  have hfinished := Detector.finished_of_pass ho (fun _ _ => nofun) hending
  obtain ⟨c, hc, -, hlater⟩ :=
    Detector.exists_contact (h.kept fun _ ht => ht.genuine) ho hfinished hl hstatus
  obtain ⟨x, -, houtcome, -, hreadings⟩ := Detector.exists_of_mem_passContacts hc
  have hreadings : c.readings = ⟨⟨1, 0⟩, ⟨1, 500⟩⟩ := hreadings
  rw [Detector.Contact.deed, ← Option.some.inj houtcome, hreadings] at hlater
  exact ⟨o, _, ho, h.tick rfl hs ho, hlater⟩

end ControlPlane
