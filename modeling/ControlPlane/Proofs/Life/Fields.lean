import ControlPlane.Proofs.Life.Chronicle

/-!
# Every field of a node has its owner

What a request for the record of a node is answered with over a whole run of requests and passes:
each field has the value that its owner gave it last, whatever else was done in between
(`Chronicle.fields`). Two patches one after the other come to the same record as one patch with the
fields of both.
-/

namespace ControlPlane

open Api (Command NodeForm NodePatch Reply Service Settings)

/-! ## Stamps are in order -/

namespace Instant

/-- A stamp is not before the one that it follows. -/
theorem following_not_before (t now : Instant) : (t.following now).before t = false := by
  refine not_before_of_before ?_
  unfold following
  split
  · assumption
  · exact t.before_moved_microsecond

end Instant

/-! ## Hardware whose numbers survive -/

/-- Whether the numbers in the hardware that a patch gives survive. -/
def Api.NodePatch.Survives (p : NodePatch) : Prop :=
  ∀ c, p.capabilities = some c → c.Survives

/-- A patch with the fields of two; where both have one, the later wins. -/
def Api.NodePatch.then (p q : NodePatch) : NodePatch where
  name := q.name <|> p.name
  ip := q.ip <|> p.ip
  port := q.port <|> p.port
  metadata := q.metadata <|> p.metadata
  network := q.network <|> p.network
  capabilities := q.capabilities <|> p.capabilities
  assignedReplicas := q.assignedReplicas <|> p.assignedReplicas

theorem Api.NodePatch.Survives.then {p q : NodePatch} (hp : p.Survives) (hq : q.Survives) :
    (p.then q).Survives := by
  intro c hc
  have hc : (q.capabilities <|> p.capabilities) = some c := hc
  cases hcaps : q.capabilities with
  | none =>
    rw [hcaps] at hc
    exact hp c hc
  | some d =>
    rw [hcaps] at hc
    exact hq c (hcaps.trans hc)

namespace Life

variable {policy : StatusPolicy} {life : Life}

/-- A node is stamped no earlier than it was registered. -/
theorem stamp_not_before_birth (life : Life) : life.stamp.before life.birth = false := by
  induction life with
  | registered form time => simp [stamp, birth, Instant.before]
  | continued earlier time deed ih =>
    exact Instant.not_before_trans (Instant.following_not_before earlier.stamp time) ih

/-- Whether the numbers in all hardware that was ever declared survive. -/
def Survives : Life → Prop
  | registered form _ => form.capabilities.Survives
  | continued earlier _ deed =>
    earlier.Survives ∧
      match deed with
      | .patched patch => patch.Survives
      | .statusSet _ | .answered _ | .silent _ _ => True

theorem survives_latest (h : life.Survives) :
    (life.latest (·.capabilities) (·.capabilities)).Survives := by
  induction life with
  | registered form time => exact h
  | continued earlier time deed ih =>
    obtain ⟨hearlier, hdeed⟩ := h
    cases deed with
    | patched patch =>
      show (patch.capabilities.getD _).Survives
      cases hp : patch.capabilities with
      | none => exact ih hearlier
      | some c => exact hdeed c hp
    | statusSet status | answered time | silent time grace => exact ih hearlier

/-- Hardware whose numbers survive is kept as it was declared last. -/
theorem hardware_eq (h : life.Survives) :
    life.hardware = life.latest (·.capabilities) (·.capabilities) := by
  induction life with
  | registered form time => exact Capabilities.settle_eq h
  | continued earlier time deed ih =>
    have hlatest := survives_latest h
    obtain ⟨hearlier, -⟩ := h
    cases deed with
    | patched patch =>
      show Capabilities.laws.settle (patch.capabilities.getD earlier.hardware) = _
      rw [ih hearlier]
      exact Capabilities.settle_eq hlatest
    | statusSet status | answered time | silent time grace =>
      show Capabilities.laws.settle earlier.hardware = _
      rw [ih hearlier]
      exact Capabilities.settle_eq hlatest

/-- Two patches leave every field as one patch with the fields of both. -/
theorem latest_then {β : Type} (given : NodePatch → Option β) (first : NodeForm → β)
    {p q : NodePatch} (hg : given (p.then q) = (given q <|> given p)) (life : Life)
    (t t' t'' : Instant) :
    ((life.continued t (.patched p)).continued t' (.patched q)).latest given first =
      (life.continued t'' (.patched (p.then q))).latest given first := by
  show (given q).getD ((given p).getD _) = (given (p.then q)).getD _
  rw [hg]
  cases given q <;> rfl

theorem node_then (h : life.Survives) {p q : NodePatch} (hp : p.Survives) (hq : q.Survives)
    (policy : StatusPolicy) (id : String) (t t' t'' : Instant) :
    (life.continued t'' (.patched (p.then q))).node policy id =
      { ((life.continued t (.patched p)).continued t' (.patched q)).node policy id with
        updatedAt := some (life.stamp.following t'') } := by
  have hboth : ((life.continued t (.patched p)).continued t' (.patched q)).Survives :=
    ⟨⟨h, hp⟩, hq⟩
  have hone : (life.continued t'' (.patched (p.then q))).Survives := ⟨h, hp.then hq⟩
  have hhardware : ((life.continued t (.patched p)).continued t' (.patched q)).hardware =
      (life.continued t'' (.patched (p.then q))).hardware := by
    rw [hardware_eq hboth, hardware_eq hone]
    exact latest_then (·.capabilities) (·.capabilities) rfl life t t' t''
  unfold node
  dsimp only
  rw [hhardware, latest_then (·.name) (·.name) rfl life t t' t'',
    latest_then (·.ip) (·.ip) rfl life t t' t'', latest_then (·.port) (·.port) rfl life t t' t'',
    latest_then (·.metadata) (·.metadata) rfl life t t' t'',
    latest_then (·.network) (·.network) rfl life t t' t'',
    latest_then (·.assignedReplicas) (·.assignedReplicas) rfl life t t' t'']
  rfl

end Life

/-! ## Whole runs -/

/-- Whether every request for the record of a node is answered with a given one. -/
def Api.Service.Tells (settings : Settings) (s : Service) (id : String) (n : Node) : Prop :=
  ∀ now requestId r, Command.ofRequest r = .ok (.getNode id) → r.method ≠ .head →
    s.respond settings now requestId r =
      (some ⟨200, some "application/json", none, (Node.codec.write n).toBytes⟩, s)

namespace Lives.Kept

variable {settings : Settings} {lives : Lives} {s s' : Service} {id : String} {life : Life}

theorem tells (h : Kept settings.policy lives s.backing) (hl : lives id = some life) :
    s.Tells settings id (life.node settings.policy id) :=
  fun now requestId _ hread hm => h.respond_getNode hl hread hm now requestId

/-- A patch that is obeyed goes into the life of the node. -/
theorem patched (h : Kept settings.policy lives s.backing) (hl : lives id = some life)
    {now : Instant} (hnow : now.Genuine) {requestId : String} {r : Http.Request} {p : NodePatch}
    (hread : Command.ofRequest r = .ok (.patchNode id p)) {a : Http.Response}
    (hr : s.respond settings now requestId r = (some a, s')) (ha : a.status = 200) :
    ∃ lives', Kept settings.policy lives' s'.backing ∧
      lives' id = some (.continued life now (.patched p)) := by
  refine ⟨lives.goOn id now (.patched p), ?_, ?_⟩
  · have hkept := h.respond hnow hr
    rw [afterRequest_of_status hread ha] at hkept
    exact hkept
  · rw [goOn_of_some hl]
    exact Function.update_self _ _ _

end Lives.Kept

/-- In a whole run of requests and passes, whatever the clock does, the record that a node is told
with has in each field the value that the owner of the field gave it last: patches own what the
registration declared, the registration owns the id and its own time, requests and the detector own
the status, signs of life the heartbeat, and answers the activity. The stamp is not before the
registration. And two patches leave the same record as one patch with the fields of both, but for
the stamp. -/
theorem Chronicle.fields {settings : Settings} {k : Nat} {lives : Lives} {s : Service}
    (h : Chronicle settings Instant.Genuine k lives s) {id : String} {life : Life}
    (hl : lives id = some life) (hs : life.Survives) :
    (∃ n stamp, s.Tells settings id n ∧ n.id = id ∧
      n.name = life.latest (·.name) (·.name) ∧
      n.ip = life.latest (·.ip) (·.ip) ∧
      n.port = life.latest (·.port) (·.port) ∧
      n.metadata = life.latest (·.metadata) (·.metadata) ∧
      n.network = life.latest (·.network) (·.network) ∧
      n.capabilities = life.latest (·.capabilities) (·.capabilities) ∧
      n.assignedReplicas = life.latest (·.assignedReplicas) (·.assignedReplicas) ∧
      n.registeredAt = some life.birth ∧
      n.status = life.status settings.policy ∧
      n.lastHeartbeat = life.heartbeat settings.policy ∧
      n.lastActivity = some life.activity ∧
      n.updatedAt = some stamp ∧ stamp.before life.birth = false) ∧
    ∀ (p q : NodePatch) (r r' r'' : Http.Request), p.Survives → q.Survives →
      Command.ofRequest r = .ok (.patchNode id p) →
      Command.ofRequest r' = .ok (.patchNode id q) →
      Command.ofRequest r'' = .ok (.patchNode id (p.then q)) →
      ∀ (t t' t'' : Instant) i i' i'' a a' a'' s₁ s₂ s₃, t.Genuine → t'.Genuine → t''.Genuine →
        s.respond settings t i r = (some a, s₁) → a.status = 200 →
        s₁.respond settings t' i' r' = (some a', s₂) → a'.status = 200 →
        s.respond settings t'' i'' r'' = (some a'', s₃) → a''.status = 200 →
        ∃ n stamp, s₂.Tells settings id n ∧ s₃.Tells settings id { n with updatedAt := stamp } := by
  have hkept := h.kept fun _ ht => ht
  refine ⟨⟨life.node settings.policy id, life.stamp, hkept.tells hl, rfl, rfl, rfl, rfl, rfl, rfl,
    Life.hardware_eq hs, rfl, rfl, rfl, rfl, rfl, rfl, life.stamp_not_before_birth⟩, ?_⟩
  intro p q r r' r'' hp hq hr hr' hr'' t t' t'' i i' i'' a a' a'' s₁ s₂ s₃ ht ht' ht'' h₁ ha h₂ ha'
    h₃ ha''
  obtain ⟨lives₁, hkept₁, hl₁⟩ := hkept.patched hl ht hr h₁ ha
  obtain ⟨lives₂, hkept₂, hl₂⟩ := hkept₁.patched hl₁ ht' hr' h₂ ha'
  obtain ⟨lives₃, hkept₃, hl₃⟩ := hkept.patched hl ht'' hr'' h₃ ha''
  have htells₃ := hkept₃.tells hl₃
  rw [Life.node_then hs hp hq settings.policy id t t' t''] at htells₃
  exact ⟨_, _, hkept₂.tells hl₂, htells₃⟩

/-- A node that was registered, got another address and answered is told with the name that it
declared, its new address and the times of its registration and its answer. -/
theorem Chronicle.fields_answered : ∃ (a : Http.Response) (s : Service)
    (o : Detector.Outcome Unit) (n : Node),
    Api.afterRegistration.2.respond ⟨.refreshHeartbeat, Api.numberedId⟩ ⟨0, 500⟩ "r"
      Api.firstPatch = (some a, s) ∧ a.status = 200 ∧
    Detector.pass (Detector.askLater true) 0 ⟨s.backing, (⟨0, 500⟩ : Instant), ()⟩ = .ok o ∧
    Service.respond ⟨.refreshHeartbeat, Api.numberedId⟩ ⟨2, 0⟩ "r" Api.firstNode
        { s with backing := o.scene.backing } =
      (some ⟨200, some "application/json", none, (Node.codec.write n).toBytes⟩,
        { s with backing := o.scene.backing }) ∧
    n.name = "n" ∧ n.ip = "10.0.0.2" ∧ n.registeredAt = some ⟨0, 0⟩ ∧ n.status = .online ∧
    n.lastHeartbeat = some ⟨1, 0⟩ ∧ n.lastActivity = some ⟨1, 0⟩ := by
  obtain ⟨lives, a, s, hr, ha, h, hl⟩ := Chronicle.exists_patched
  obtain ⟨o, lives', ho, h', hl'⟩ := h.exists_answered (by decide) ⟨0, 500⟩ hl (by decide)
  have hdevices : ({} : Capabilities).Survives := nofun
  obtain ⟨⟨n, -, htells, -, hname, hip, -, -, -, -, -, hbirth, hstatus, hheartbeat, hactivity, -⟩,
    -⟩ := Chronicle.fields (h'.mono fun _ ht => ht.genuine) hl' ⟨⟨hdevices, nofun⟩, trivial⟩
  exact ⟨a, s, o, n, hr, ha, ho, htells _ _ _ Api.ofRequest_firstNode nofun, hname, hip, hbirth,
    hstatus, hheartbeat, hactivity⟩

/-- A field of a patch that is null is not given, like one that is absent. -/
example : Api.readBody NodePatch.codec ⟨.patch, "/api/nodes/n", some "application/json",
    utf8 "\x7b\"name\": null, \"ip\": \"10.0.0.2\"\x7d"⟩ = .ok { ip := some "10.0.0.2" } := by
  rfl

end ControlPlane
