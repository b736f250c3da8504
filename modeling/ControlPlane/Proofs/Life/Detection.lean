import ControlPlane.Proofs.Detector.Silence
import ControlPlane.Proofs.Life.Chronicle

/-!
# Failure detection is exact

Over a whole run of requests and passes the detector judges every node by its last sign of life
alone: the last heartbeat in the node's life or, if there has been none, its registration. A pass
asks each node that is online or unknown once; one that answers is online and gives a sign of life,
one that does not is offline if its silence is too long by then and unknown otherwise. Nothing else
but a status set by hand moves the last sign of life or the status (`Chronicle.detection`).
-/

namespace ControlPlane

open Api (Command Reply Service Settings)
open Detector (Prober Scene Calm)

variable {policy : StatusPolicy} {clock : Instant → Prop} {lives : Lives} {grace : Nat}

/-! ## Stamps are in no leap second -/

namespace Instant

theorem isLeap_following {t now : Instant} (ht : t.isLeap = false) (hn : now.isLeap = false) :
    (t.following now).isLeap = false := by
  unfold following
  split
  · exact hn
  · exact isLeap_moved_microsecond ht

end Instant

/-! ## Where a node stands -/

/-- Whether the record of a node has a status, and a last sign of life that the detector counts its
silence from. -/
def Backing.Stands (b : Backing) (id : String) (status : NodeStatus) (sign : Instant) : Prop :=
  ∃ n, nodes.get b.store id = .ok (some n) ∧ n.status = status ∧ Detector.lastSeen n = some sign

namespace Lives.Kept

variable {b : Backing} {id : String} {life : Life}

theorem stands (h : Kept policy lives b) (hl : lives id = some life) :
    b.Stands id (life.status policy) (life.sign policy) :=
  ⟨_, h.get hl, rfl, Life.lastSeen_node policy id life⟩

end Lives.Kept

/-! ## Passes -/

namespace Detector

variable {σ : Type} {ask : Prober σ} {scene : Scene σ} {id : String} {life : Life}

/-- How a pass judges a node by its contact with it: one that answered is online and was seen just
then, one that did not is offline or unknown by its silence. -/
def Contact.Judged (grace : Nat) (sign : Instant) (c : Contact) (b : Backing) : Prop :=
  match c.outcome with
  | .ok _ => b.Stands c.node .online c.readings.ended
  | .error _ =>
    b.Stands c.node
      (if (grace : Int) < c.readings.ended.ticks - sign.ticks then .offline else .unknown) sign

/-- A node that goes on by a contact is judged. -/
theorem judged_of_kept {b : Backing} {c : Contact} (h : lives.Kept policy b)
    (hs : (life.sign policy).isLeap = false) (hc : c.readings.ended.isLeap = false)
    (hl : lives c.node = some (.continued life c.readings.stamping (c.deed grace))) :
    c.Judged grace (life.sign policy) b := by
  have hstands := h.stands hl
  obtain ⟨node, outcome, readings⟩ := c
  cases outcome with
  | ok r => exact hstands
  | error e =>
    have hverdict := verdict_eq hs hc grace
    unfold Contact.Judged
    dsimp only at hverdict ⊢
    rw [← hverdict]
    exact hstands

/-- A pass that finished asked each node that was online or unknown once and judged it, and left
every other node alone. -/
theorem judged_of_finished (hclock : ∀ t, clock t → t.Genuine ∧ t.isLeap = false)
    (h : lives.Kept policy scene.backing)
    (hleap : lives.All fun life => life.Bears (·.isLeap = false) policy)
    (hs : Calm clock ask grace scene) {o : Outcome σ} (ho : pass ask grace scene = .ok o)
    (hfinished : o.ending = .finished) (hl : lives id = some life) :
    (life.status policy ∈ probedStatuses → o.asked.count id = 1 ∧
      ∃ c ∈ passContacts ask grace scene, c.node = id ∧
        c.Judged grace (life.sign policy) o.scene.backing) ∧
    (life.status policy ∉ probedStatuses → id ∉ o.asked ∧
      o.scene.backing.Stands id (life.status policy) (life.sign policy)) := by
  have hkept := kept_pass (fun t ht => (hclock t ht).1) h hs ho
  obtain ⟨hasked, hnodup, hmem⟩ := contacts_of_finished h ho hfinished
  constructor
  · intro hstatus
    obtain ⟨c, hc, rfl, hlater⟩ := exists_contact h ho hfinished hl hstatus
    refine ⟨List.count_eq_one_of_mem hnodup ((hmem _ life hl).2 hstatus), c, hc, rfl, ?_⟩
    have hended := (hclock _ (hs.readings_of_mem hc).ended).2
    exact judged_of_kept hkept (hleap _ life hl).sign hended hlater
  · intro hstatus
    have hnot : id ∉ o.asked := fun hm => hstatus ((hmem id life hl).1 hm)
    refine ⟨hnot, ?_⟩
    rw [hasked] at hnot
    exact hkept.stands ((Lives.afterContacts_of_notMem hnot).trans hl)

end Detector

/-! ## Requests -/

namespace Lives

variable {id fresh : String} {life : Life}

/-- A command that does not set the status of a node, remove it or register it anew leaves its
status and its last sign of life alone. -/
theorem exists_afterCommand (policy : StatusPolicy) (hl : lives id = some life) {now : Instant}
    {c : Command} (hs : ∀ status, c ≠ .setNodeStatus id status) (hr : c ≠ .removeNode id)
    (hf : ∀ form, c = .registerNode form → fresh ≠ id) :
    ∃ life', lives.afterCommand fresh now c id = some life' ∧
      life'.status policy = life.status policy ∧ life'.sign policy = life.sign policy := by
  cases c with
  | registerNode form =>
    exact ⟨life, (Function.update_of_ne (hf form rfl).symm _ _).trans hl, rfl, rfl⟩
  | removeNode id' =>
    have hid : id ≠ id' := fun he => hr (he ▸ rfl)
    exact ⟨life, (Function.update_of_ne hid _ _).trans hl, rfl, rfl⟩
  | setNodeStatus id' status =>
    have hid : id ≠ id' := fun he => hs status (he ▸ rfl)
    exact ⟨life, (Function.update_of_ne hid _ _).trans hl, rfl, rfl⟩
  | patchNode id' patch =>
    by_cases hid : id = id'
    · subst hid
      refine ⟨.continued life now (.patched patch), ?_, rfl, rfl⟩
      rw [afterCommand, goOn_of_some hl, Function.update_self]
    · exact ⟨life, (Function.update_of_ne hid _ _).trans hl, rfl, rfl⟩
  | _ => exact ⟨life, hl, rfl, rfl⟩

theorem exists_afterRequest (policy : StatusPolicy) {r : Http.Request}
    (response : Option Http.Response) (now : Instant) (hl : lives id = some life)
    (hs : ∀ status, Command.ofRequest r ≠ .ok (.setNodeStatus id status))
    (hr : Command.ofRequest r ≠ .ok (.removeNode id))
    (hf : ∀ form, Command.ofRequest r = .ok (.registerNode form) → fresh ≠ id) :
    ∃ life', lives.afterRequest fresh now r response id = some life' ∧
      life'.status policy = life.status policy ∧ life'.sign policy = life.sign policy := by
  rcases afterRequest_cases fresh now r response lives with he | ⟨c, hread, he⟩
  · rw [he]
    exact ⟨life, hl, rfl, rfl⟩
  · rw [he]
    rw [hread] at hs hr hf
    exact exists_afterCommand policy hl (fun status hc => hs status (hc ▸ rfl))
      (fun hc => hr (hc ▸ rfl)) fun form hc => hf form (hc ▸ rfl)

end Lives

/-- A request that sets the status of a node which is there is obeyed, as long as there is a later
time. -/
theorem Lives.Kept.isDone_setNodeStatus {settings : Settings} {s s' : Service} {now : Instant}
    {bound bound' : String → Int} {r : Http.Request} {reply : Reply} {id : String} {life : Life}
    {status : NodeStatus} (h : Kept settings.policy lives s.backing)
    (hsound : s.backing.Sound bound) (hroom : ∀ id, Room bound bound' id now)
    (hnow : now.Genuine) (hl : lives id = some life)
    (hread : Command.ofRequest r = .ok (.setNodeStatus id status))
    (hd : Service.Deals settings now r s reply s') : reply.isDone = true := by
  rcases Command.decide_fair hsound.data hroom (Command.fits_ofRequest hread) settings.policy
    (settings.ids s.issued) with ⟨e, he, hcaller⟩ | ⟨d, hdecide, -⟩
  · have hset : (Node.setStatus s.backing.store now settings.policy id status >>= fun c =>
        Except.ok (Api.Decision.done c)) = .error e := he
    rw [Node.setStatus_eq h.shown h.works.plain (records_of_some settings.policy hl),
      show (life.node settings.policy id).updatedAt = some life.stamp from rfl] at hset
    rcases nextStamp_some now life.stamp with hs | hs
    · rw [hs] at hset
      cases hset
    · rw [hs] at hset
      cases hset
      exact absurd rfl hcaller.ne_noLaterTime
  · exact h.isDone_of_decide hnow hread hdecide hd

/-! ## Whole runs -/

/-- In a whole run of requests and passes, whatever the clock does, the store tells of each node the
status and the last sign of life that its life has. Every pass succeeds and, if it is not cut short,
asks each node that is online or unknown once, has one contact with it and judges it by that and by
its last sign of life, and leaves those that are offline or in error alone. A request that sets the
status of a node by hand is obeyed and may count as a sign of life, every other request that leaves
the node there leaves its status and its last sign of life alone. -/
theorem Chronicle.detection {settings : Settings} {limit : Int} {k : Nat} {s : Service}
    (h : Chronicle settings (Instant.Ordinary limit) k lives s)
    (hk : limit + 1000 * (k + 1 : Nat) ≤ Instant.lastTick) :
    (∀ id life, lives id = some life →
      s.backing.Stands id (life.status settings.policy) (life.sign settings.policy)) ∧
    (∀ (σ : Type) (ask : Prober σ) (grace : Nat) (scene : Scene σ), scene.backing = s.backing →
      Calm (Instant.Ordinary limit) ask grace scene →
      ∃ o, Detector.pass ask grace scene = .ok o ∧ o.ending ≠ .noLaterTime ∧
        ((∀ x ∈ Detector.passOccasions ask grace scene, (ask x.node x.scene).1 ≠ none) →
          o.ending = .finished) ∧
        (o.ending = .finished →
          o.asked = (Detector.passContacts ask grace scene).map Detector.Contact.node ∧
          ∀ id life, lives id = some life →
            (life.status settings.policy ∈ [.online, .unknown] → o.asked.count id = 1 ∧
              ∃ c ∈ Detector.passContacts ask grace scene, c.node = id ∧
                c.Judged grace (life.sign settings.policy) o.scene.backing) ∧
            (life.status settings.policy ∈ [.offline, .error] → id ∉ o.asked ∧
              o.scene.backing.Stands id (life.status settings.policy)
                (life.sign settings.policy)))) ∧
    (∀ now requestId r response s', Instant.Ordinary limit now →
      s.respond settings now requestId r = (response, s') → ∀ id life, lives id = some life →
      (∀ status, Command.ofRequest r = .ok (.setNodeStatus id status) →
        (∃ a, response = some a ∧ a.status = 200) ∧
        ∃ n stamp, nodes.get s'.backing.store id = .ok (some n) ∧ n.status = status ∧
          n.updatedAt = some stamp ∧ Detector.lastSeen n =
            some (if settings.policy = .refreshHeartbeat then stamp
              else life.sign settings.policy)) ∧
      ((∀ status, Command.ofRequest r ≠ .ok (.setNodeStatus id status)) →
        Command.ofRequest r ≠ .ok (.removeNode id) →
        (∀ form, Command.ofRequest r = .ok (.registerNode form) → settings.ids s.issued ≠ id) →
        s'.backing.Stands id (life.status settings.policy) (life.sign settings.policy))) := by
  have hkept := h.kept fun t ht => ht.genuine
  have hsound := (h.run fun t ht => ⟨ht.inRange, ht.le⟩).backing_sound (by omega)
  have hleap : lives.All fun life => life.Bears (·.isLeap = false) settings.policy :=
    h.all (fun form t ht => .registered ht.isLeap form) fun life t deed ht hd hb =>
      hb.continued (hd.mono fun _ ht => ht.isLeap) (Instant.isLeap_following hb.stamp ht.isLeap)
  refine ⟨fun id life hl => hkept.stands hl, ?_, ?_⟩
  · intro σ ask grace scene hbacking hcalm
    obtain ⟨o, ho, hending⟩ := h.exists_pass (fun t ht => ⟨ht.inRange, ht.le⟩) hk hbacking hcalm
    rw [← hbacking] at hkept
    refine ⟨o, ho, hending, fun hask => Detector.finished_of_pass ho hask hending, ?_⟩
    intro hfinished
    refine ⟨(Detector.contacts_of_finished hkept ho hfinished).1, fun id life hl => ?_⟩
    obtain ⟨hprobed, hleft⟩ := Detector.judged_of_finished
      (fun t ht => ⟨ht.genuine, ht.isLeap⟩) hkept hleap hcalm ho hfinished hl
    refine ⟨hprobed, ?_⟩
    intro hstatus
    apply hleft
    revert hstatus
    cases life.status settings.policy <;> decide
  · intro now requestId r response s' hnow hr id life hl
    have hafter := hkept.respond hnow.genuine hr
    constructor
    · intro status hread
      obtain ⟨reply, hdeals, hshown⟩ := Service.deals_respond settings now requestId r s
      rw [hr] at hdeals hshown
      have hdone := hkept.isDone_setNodeStatus hsound
        (room_succ hnow.inRange hnow.le hk) hnow.genuine hl hread hdeals
      rw [Lives.afterRequest_of_isDone hshown hdone hread, Lives.afterCommand,
        Lives.goOn_of_some hl] at hafter
      refine ⟨hshown.isDone_iff.1 hdone, _, life.stamp.following now,
        hafter.get (Function.update_self _ _ _), rfl, rfl, ?_⟩
      rw [Life.lastSeen_node, Life.sign_statusSet]
    · intro hs hremove hregister
      obtain ⟨life', hl', hstatus, hsign⟩ :=
        Lives.exists_afterRequest settings.policy response now hl hs hremove hregister
      rw [← hstatus, ← hsign]
      exact hafter.stands hl'

/-- A node that does not answer a second after its registration is offline where no silence is
tolerated. -/
theorem Chronicle.detection_silent : ∃ o : Detector.Outcome Unit,
    Detector.pass (Detector.askLater false) 0
      ⟨Api.afterRegistration.2.backing, (⟨0, 0⟩ : Instant), ()⟩ = .ok o ∧
    o.asked.count (Api.numberedId 0) = 1 ∧
    o.scene.backing.Stands (Api.numberedId 0) .offline ⟨0, 0⟩ := by
  have hnow : (⟨⟨1, 0⟩, ⟨1, 500⟩⟩ : Detector.Readings).Both (Instant.Ordinary 2000000000) :=
    ⟨⟨rfl, rfl, by decide⟩, rfl, rfl, by decide⟩
  obtain ⟨lives, h, hl⟩ := Chronicle.exists_registration
  obtain ⟨-, hpass, -⟩ := Chronicle.detection h (by decide +kernel)
  obtain ⟨o, ho, -, hending, hjudged⟩ := hpass Unit (Detector.askLater false) 0
    ⟨Api.afterRegistration.2.backing, (⟨0, 0⟩ : Instant), ()⟩ rfl fun _ _ => ⟨rfl, hnow⟩
  obtain ⟨-, hjudged⟩ := hjudged (hending fun _ _ => nofun)
  obtain ⟨hasked, c, hc, hnode, hstands⟩ := (hjudged _ _ hl).1 (by decide)
  obtain ⟨x, -, houtcome, -, hreadings⟩ := Detector.exists_of_mem_passContacts hc
  refine ⟨o, ho, hasked, ?_⟩
  rw [Detector.Contact.Judged, ← Option.some.inj houtcome, hreadings, hnode] at hstands
  exact hstands

end ControlPlane
