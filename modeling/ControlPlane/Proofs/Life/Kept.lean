import ControlPlane.Proofs.Api.Command
import ControlPlane.Proofs.Life.Lives
import ControlPlane.Proofs.Registry.NodeChange

/-!
# Stores that show the lives of their nodes

On a store that works each record of a node is the one that its life tells (`Lives.Kept`). This is
kept up by every request (`Lives.Kept.respond`) and by every contact of the detector with a node
(`Detector.notes_onOutcome`), whatever else these do.
-/

namespace ControlPlane

open Api (Command Decision Reply Service Settings)
open Detector (Progress)

namespace Lives

/-- Whether a store works and its nodes have the records that their lives tell. -/
structure Kept (policy : StatusPolicy) (lives : Lives) (b : Backing) : Prop where
  works : b.Works
  shown : nodes.Shows b.store.data (lives.records policy)
  genuine : lives.All fun life => life.Bears Instant.Genuine policy

namespace Kept

variable {policy : StatusPolicy} {lives : Lives} {b : Backing} {id : String} {life : Life}
  {now : Instant}

/-! ## Looking -/

/-- Looking a node up that is there finds the record that its life tells. -/
theorem get (h : Kept policy lives b) (hl : lives id = some life) :
    nodes.get b.store id = .ok (some (life.node policy id)) := by
  have hr := records_of_some policy hl
  rw [h.shown.get h.works.plain (h.shown.own id _ hr).1, hr]

/-- A request for the record of a node that is there is answered with the one that its life
tells. -/
theorem respond_getNode {settings : Settings} {s : Service} {r : Http.Request}
    (h : Kept settings.policy lives s.backing) (hl : lives id = some life)
    (hread : Command.ofRequest r = .ok (.getNode id)) (hm : r.method ≠ .head) (now : Instant)
    (requestId : String) :
    s.respond settings now requestId r = (some ⟨200, some "application/json", none,
      (Node.codec.write (life.node settings.policy id)).toBytes⟩, s) :=
  Service.respond_getNode hread hm
    (h.shown.require_of_some h.works.plain (records_of_some settings.policy hl)) now requestId

/-! ## Changes -/

/-- The record of a node that is there can be written again. -/
theorem fits (h : Kept policy lives b) (hl : lives id = some life) :
    (life.node policy id).Fits := by
  obtain ⟨bs, -, hread⟩ := h.shown.exists_of_some (records_of_some policy hl)
  exact Node.fits_iff.1 (nodes.laws.fits_of_ofBytes hread)

/-- Writing the record that a life tells. -/
theorem write (h : Kept policy lives b) {n : Node}
    (hn : life.node policy id = nodes.genuine.codec.settle n)
    (hc : Capabilities.laws.Fits (Tree.depthLimit - 1) n.capabilities)
    (hg : life.Bears Instant.Genuine policy) (hid : id ≠ "") :
    ∃ b', b.commit (nodes.write id n) = (none, b') ∧
      Kept policy (Function.update lives id (some life)) b' := by
  have hsettled := hn
  rw [Node.settle_eq] at hsettled
  have hgenuine : n.Genuine := by
    have hr : some life.birth = n.registeredAt := congrArg Node.registeredAt hsettled
    have hu : some life.stamp = n.updatedAt := congrArg Node.updatedAt hsettled
    have hh : life.heartbeat policy = n.lastHeartbeat := congrArg Node.lastHeartbeat hsettled
    have ha : some life.activity = n.lastActivity := congrArg Node.lastActivity hsettled
    refine ⟨hc, ?_, ?_, ?_, ?_⟩
    · intro t ht
      exact Option.some.inj (hr.trans ht) ▸ hg.birth
    · intro t ht
      exact Option.some.inj (hu.trans ht) ▸ hg.stamp
    · intro t ht
      exact hg.heartbeat t (hh.trans ht)
    · intro t ht
      exact Option.some.inj (ha.trans ht) ▸ hg.activity
  have hnid : n.id = id := (congrArg Node.id hsettled).symm
  obtain ⟨b', hcommit, hworks, hdata⟩ :=
    h.works.commit (c := nodes.write id n) (nodes.key_ne_empty id)
  refine ⟨b', hcommit, hworks, ?_, h.genuine.update id fun l hl => Option.some.inj hl ▸ hg⟩
  rw [hdata, records_update, Option.map_some, hn]
  exact h.shown.write nodes.genuine hgenuine.fits hid hnid

/-- Taking the record of a node away. -/
theorem delete (h : Kept policy lives b) (id : String) :
    ∃ b', b.commit (.delete (nodes.key id)) = (none, b') ∧
      Kept policy (Function.update lives id none) b' := by
  obtain ⟨b', hcommit, hworks, hdata⟩ :=
    h.works.commit (c := .delete (nodes.key id)) (nodes.key_ne_empty id)
  refine ⟨b', hcommit, hworks, ?_, h.genuine.update id nofun⟩
  rw [hdata, records_update, Option.map_none]
  exact h.shown.delete id

/-- A change of a record of another kind. -/
theorem elsewhere (h : Kept policy lives b) {c : Change}
    (hc : (∃ id, c.key = models.key id) ∨ ∃ id, c.key = replicas.key id) :
    ∃ b', b.commit c = (none, b') ∧ Kept policy lives b' := by
  have hk : c.key ≠ "" := by
    rcases hc with ⟨id, hid⟩ | ⟨id, hid⟩
    · exact hid ▸ models.key_ne_empty id
    · exact hid ▸ replicas.key_ne_empty id
  obtain ⟨b', hcommit, hworks, hdata⟩ := h.works.commit hk
  refine ⟨b', hcommit, hworks, ?_, h.genuine⟩
  rw [hdata]
  rcases hc with hid | hid
  · exact h.shown.elsewhere Registry.nodes_apart_models hid
  · exact h.shown.elsewhere Registry.nodes_apart_replicas hid

/-- Something is done to a node that is there: where there is a later time, the record is written
that its life tells then. -/
theorem goOn (h : Kept policy lives b) (hl : lives id = some life) (deed : Deed)
    (hd : deed.Shows Instant.Genuine) (op : Instant → Node)
    (hop : (Life.continued life now deed).node policy id =
      nodes.genuine.codec.settle (op (life.stamp.following now)))
    (hc : ∀ t, Capabilities.laws.Fits (Tree.depthLimit - 1) (op t).capabilities)
    (hnow : now.Genuine) :
    (∃ b', nextStamp now (life.node policy id).updatedAt = .ok (life.stamp.following now) ∧
        b.commit (nodes.write id (op (life.stamp.following now))) = (none, b') ∧
        Kept policy (lives.goOn id now deed) b') ∨
      nextStamp now (life.node policy id).updatedAt = .error .noLaterTime := by
  have hgenuine := h.genuine id life hl
  rcases nextStamp_some now life.stamp with hs | hs
  · have hfollowing : (life.stamp.following now).Genuine :=
      genuine_nextStamp hnow (fun t ht => Option.some.inj ht ▸ hgenuine.stamp) hs
    have hid := (h.shown.own id _ (records_of_some policy hl)).1
    obtain ⟨b', hcommit, hkept⟩ :=
      h.write hop (hc _) (hgenuine.continued hd hfollowing) hid
    rw [← goOn_of_some hl] at hkept
    exact .inl ⟨b', hs, hcommit, hkept⟩
  · exact .inr hs

/-! ## Requests -/

theorem require_of_none (h : Kept policy lives b) (hl : lives id = none) :
    ∃ e, nodes.require b.store id = .error e := by
  by_cases hid : id = ""
  · subst hid
    exact ⟨_, rfl⟩
  · exact ⟨_, h.shown.require_of_none h.works.plain hid (by rw [records, hl]; rfl)⟩

/-- A change that a command comes to is made, and the nodes have the records that their lives tell
after the command. -/
theorem decided (h : Kept policy lives b) {c : Command} (hf : c.Fits) (hnow : now.Genuine)
    {fresh : String} {change : Change} {body : Json} {named : Bool}
    (hd : c.decide policy now fresh b.store = .ok (.make change body named)) :
    ∃ b', b.commit change = (none, b') ∧ Kept policy (lives.afterCommand fresh now c) b' := by
  have records {life : Life} {id : String} (hl : lives id = some life) :=
    records_of_some policy hl
  cases c with
  | health | listNodes | getNode id | listModels | getModel id | listReplicas modelId
  | getReplica id =>
    cases Command.decide_tells policy now fresh b.store _ _ hd
  | addModel m | putModel id m | removeModel id | addReplica r | putReplica id r
  | removeReplica id =>
    exact h.elsewhere (Command.decide_offNodes rfl policy now fresh b.store _ hd)
  | registerNode form =>
    by_cases hfresh : fresh = ""
    · subst hfresh
      cases hd
    · rw [Command.decide_registerNode hfresh] at hd
      cases hd
      exact h.write (Life.node_registered policy fresh now form) (hf fresh).capabilities
        (.registered hnow form) hfresh
  | removeNode id =>
    obtain ⟨c, hc, hd⟩ := Except.bind_eq_ok.1 hd
    cases hd
    by_cases hid : id = ""
    · subst hid
      cases hc
    · rw [Registry.remove_of_ne hid] at hc
      cases hc
      exact h.delete id
  | patchNode id patch =>
    obtain ⟨c, hc, hd⟩ := Except.bind_eq_ok.1 hd
    cases hd
    cases hl : lives id with
    | none =>
      obtain ⟨e, he⟩ := h.require_of_none hl
      rw [Api.applyPatch, he] at hc
      cases hc
    | some life =>
      rw [Api.applyPatch_eq h.shown h.works.plain (records hl)] at hc
      rcases h.goOn hl (.patched patch) trivial _ (Life.node_patched policy id life now patch)
        (fun _ => (hf _ (h.fits hl)).capabilities) hnow with ⟨b', hs, hcommit, hkept⟩ | hs
      · rw [hs] at hc
        cases hc
        exact ⟨b', hcommit, hkept⟩
      · rw [hs] at hc
        cases hc
  | setNodeStatus id status =>
    obtain ⟨c, hc, hd⟩ := Except.bind_eq_ok.1 hd
    cases hd
    cases hl : lives id with
    | none =>
      obtain ⟨e, he⟩ := h.require_of_none hl
      rw [Node.setStatus, he] at hc
      cases hc
    | some life =>
      rw [Node.setStatus_eq h.shown h.works.plain (records hl)] at hc
      rcases h.goOn hl (.statusSet status) trivial _
        (Life.node_statusSet policy id life now status) (fun _ => (h.fits hl).capabilities)
        hnow with ⟨b', hs, hcommit, hkept⟩ | hs
      · rw [hs] at hc
        cases hc
        exact ⟨b', hcommit, hkept⟩
      · rw [hs] at hc
        cases hc

/-- After a request the nodes have the records that their lives tell then. -/
theorem respond {settings : Settings} {s s' : Service} (h : Kept settings.policy lives s.backing)
    (hnow : now.Genuine) {requestId : String} {r : Http.Request} {response : Option Http.Response}
    (hr : s.respond settings now requestId r = (response, s')) :
    Kept settings.policy (lives.afterRequest (settings.ids s.issued) now r response)
      s'.backing := by
  obtain ⟨reply, hdeals, hshown⟩ := Service.deals_respond settings now requestId r s
  rw [hr] at hdeals hshown
  dsimp only at hdeals hshown
  cases hdeals with
  | refused read =>
    rw [afterRequest_of_not_isDone hshown rfl]
    exact h
  | failed read decided =>
    rw [afterRequest_of_not_isDone hshown rfl]
    exact h
  | told read decided =>
    have hlooks := Command.decide_tells _ _ _ _ _ _ decided
    rw [afterRequest_of_isDone hshown rfl read, afterCommand_of_looks hlooks.symm]
    exact h
  | made read decided commit =>
    obtain ⟨b', hcommit, hkept⟩ := h.decided (Command.fits_ofRequest read) hnow decided
    obtain rfl : _ = b' := (Prod.mk.inj (commit.symm.trans hcommit)).2
    rw [afterRequest_of_isDone hshown rfl read]
    exact hkept
  | unmade read decided commit =>
    obtain ⟨b', hcommit, -⟩ := h.decided (Command.fits_ofRequest read) hnow decided
    cases commit.symm.trans hcommit

/-- A command that comes to a decision is obeyed. -/
theorem isDone_of_decide {settings : Settings} {s s' : Service} {r : Http.Request} {reply : Reply}
    {c : Command} {d : Decision} (h : Kept settings.policy lives s.backing) (hnow : now.Genuine)
    (hread : Command.ofRequest r = .ok c)
    (hd : c.decide settings.policy now (settings.ids s.issued) s.backing.store = .ok d)
    (hdeals : Service.Deals settings now r s reply s') : reply.isDone = true := by
  cases hdeals with
  | refused read => cases hread.symm.trans read
  | told | made => rfl
  | failed read decided =>
    obtain rfl := Except.ok.inj (hread.symm.trans read)
    cases hd.symm.trans decided
  | unmade read decided commit =>
    obtain ⟨b, hcommit, -⟩ := h.decided (Command.fits_ofRequest read) hnow decided
    cases commit.symm.trans hcommit

section Obeyed

variable {settings : Settings} {s s' : Service} {requestId : String} {r : Http.Request}
  {response : Option Http.Response}

/-- The response to a command that comes to a decision tells that it was obeyed. -/
theorem afterRequest_of_decide {c : Command} {d : Decision}
    (h : Kept settings.policy lives s.backing) (hnow : now.Genuine)
    (hread : Command.ofRequest r = .ok c)
    (hd : c.decide settings.policy now (settings.ids s.issued) s.backing.store = .ok d)
    (hr : s.respond settings now requestId r = (response, s')) :
    (∃ a, response = some a ∧ a.status = 200) ∧
      lives.afterRequest (settings.ids s.issued) now r response =
        lives.afterCommand (settings.ids s.issued) now c := by
  obtain ⟨reply, hdeals, hshown⟩ := Service.deals_respond settings now requestId r s
  rw [hr] at hdeals hshown
  have hdone := h.isDone_of_decide hnow hread hd hdeals
  exact ⟨hshown.isDone_iff.1 hdone, afterRequest_of_isDone hshown hdone hread⟩

/-- A registration is obeyed. -/
theorem afterRequest_registerNode {form : Api.NodeForm}
    (h : Kept settings.policy lives s.backing) (hnow : now.Genuine)
    (hid : settings.ids s.issued ≠ "") (hread : Command.ofRequest r = .ok (.registerNode form))
    (hr : s.respond settings now requestId r = (response, s')) :
    lives.afterRequest (settings.ids s.issued) now r response =
      Function.update lives (settings.ids s.issued) (some (.registered form now)) :=
  (h.afterRequest_of_decide hnow hread
    (Command.decide_registerNode hid settings.policy now s.backing.store form) hr).2

/-- A patch of a node that is there is obeyed once the clock has gone on. -/
theorem afterRequest_patchNode {patch : Api.NodePatch}
    (h : Kept settings.policy lives s.backing) (hnow : now.Genuine) (hl : lives id = some life)
    (hlater : life.stamp.before now = true)
    (hread : Command.ofRequest r = .ok (.patchNode id patch))
    (hr : s.respond settings now requestId r = (response, s')) :
    (∃ a, response = some a ∧ a.status = 200) ∧
      lives.afterRequest (settings.ids s.issued) now r response =
        lives.goOn id now (.patched patch) := by
  have hstamp : nextStamp now (some life.stamp) = .ok now := if_pos hlater
  have hd : (Command.patchNode id patch).decide settings.policy now (settings.ids s.issued)
      s.backing.store = (do return Decision.done (← Api.applyPatch s.backing.store now id patch)) :=
    rfl
  rw [Api.applyPatch_eq h.shown h.works.plain (records_of_some settings.policy hl),
    show (life.node settings.policy id).updatedAt = some life.stamp from rfl, hstamp] at hd
  exact h.afterRequest_of_decide hnow hread hd hr

end Obeyed

/-! ## Contacts -/

theorem perform (h : Kept policy lives b) {β : Type} {decision : Except RegistryError (Change × β)}
    (hd : decision.Yields fun x => ∃ b', b.commit x.1 = (none, b') ∧ Kept policy lives b') :
    Kept policy lives (b.perform decision).2 := by
  unfold Backing.perform
  cases decision with
  | error e => exact h
  | ok x =>
    obtain ⟨b', hcommit, hkept⟩ := hd x rfl
    dsimp only
    rw [hcommit]
    exact hkept

end Kept

end Lives

namespace Detector

variable {policy : StatusPolicy} {lives : Lives} {b : Backing} {id : String} {life : Life}
  {now : Readings}

/-- Whether a step went on and did nothing to nodes. -/
structure Progress.Keeps (policy : StatusPolicy) (lives : Lives) (p : Progress) : Prop where
  went : p.stopped = false
  kept : lives.Kept policy p.backing

theorem Progress.Keeps.andThen {p : Progress} (h : p.Keeps policy lives)
    {next : Backing → Progress} (hn : (next p.backing).Keeps policy lives) :
    (p.andThen next).Keeps policy lives := by
  unfold Progress.andThen
  rw [h.went]
  exact ⟨hn.went, hn.kept⟩

theorem keeps_reconcileOne (h : lives.Kept policy b) (node : String) (r : HeartbeatResponse)
    (now : Instant) (replicaId : String) :
    (reconcileOne node r now b replicaId).Keeps policy lives := by
  unfold reconcileOne
  split
  · rename_i replica _
    dsimp only
    have hput : (replicas.put replicaId (replica.observed (r.observe replicaId) now)).map
        (fun c => (c, ())) |>.Yields
          fun x => ∃ b', b.commit x.1 = (none, b') ∧ lives.Kept policy b' := by
      intro x hx
      cases hc : replicas.put replicaId (replica.observed (r.observe replicaId) now) with
      | error e =>
        rw [hc] at hx
        cases hx
      | ok c =>
        rw [hc] at hx
        cases hx
        exact h.elsewhere (.inr ⟨replicaId, replicas.put_yields _ _ c hc⟩)
    have hkept := h.perform hput
    split
    · rename_i hp
      rw [hp] at hkept
      exact ⟨rfl, hkept⟩
    · rename_i hp
      rw [hp] at hkept
      exact ⟨rfl, hkept⟩
  · exact ⟨rfl, h⟩
  · exact ⟨rfl, h⟩

theorem keeps_reconcile (h : lives.Kept policy b) (node : String) (r : HeartbeatResponse)
    (now : Instant) (assigned : List String) :
    (reconcile node r now b assigned).Keeps policy lives := by
  unfold reconcile
  refine List.foldlRecOn assigned _ ⟨rfl, h⟩ ?_
  intro p hp id _
  exact hp.andThen (keeps_reconcileOne hp.kept node r now id)

/-- What a step makes of the lives: something is done to a node, or no later time is left. -/
inductive Progress.Notes (policy : StatusPolicy) (lives : Lives) (id : String) (now : Instant)
    (deed : Deed) (p : Progress) : Prop
  | noted (went : p.stopped = false) (kept : (lives.goOn id now deed).Kept policy p.backing)
  | ended (stopped : p.stopped = true) (kept : lives.Kept policy p.backing)

theorem Progress.Keeps.notes {p : Progress} (h : p.Keeps policy lives)
    {next : Backing → Progress} {now : Instant} {deed : Deed}
    (hn : (next p.backing).Notes policy lives id now deed) :
    (p.andThen next).Notes policy lives id now deed := by
  unfold Progress.andThen
  rw [h.went]
  cases hn with
  | noted went kept => exact .noted went kept
  | ended stopped kept => exact .ended stopped kept

/-- Noting the answer of a node that was online or unknown. -/
theorem notes_noteHeartbeat (h : lives.Kept policy b) (hl : lives id = some life)
    (hs : life.status policy ∈ probedStatuses) (hnow : now.Both Instant.Genuine) :
    (noteHeartbeat (life.node policy id) now b).Notes policy lives id now.stamping
      (.answered now.ended) := by
  unfold noteHeartbeat
  rw [show (life.node policy id).id = id from rfl,
    Node.recordHeartbeat_eq h.shown h.works.plain (Lives.records_of_some policy hl)]
  rcases h.goOn hl (.answered now.ended) hnow.ended _
    (Life.node_answered policy id life now.stamping now.ended hs)
    (fun _ => (h.fits hl).capabilities) hnow.stamping with ⟨b', hstamp, hcommit, hkept⟩ | hstamp
  · rw [hstamp]
    unfold Backing.perform
    dsimp only [Except.map]
    rw [hcommit]
    exact .noted rfl hkept
  · rw [hstamp]
    exact .ended rfl h

theorem notes_onAnswer (h : lives.Kept policy b) (hl : lives id = some life)
    (hs : life.status policy ∈ probedStatuses) (hnow : now.Both Instant.Genuine)
    (r : HeartbeatResponse) :
    (onAnswer (life.node policy id) r now b).Notes policy lives id now.stamping
      (.answered now.ended) := by
  unfold onAnswer
  have hreconcile := keeps_reconcile h (life.node policy id).id r now.ended
    (life.node policy id).assignedReplicas
  refine Progress.Keeps.notes ⟨rfl, h⟩ ?_
  exact hreconcile.notes (notes_noteHeartbeat hreconcile.kept hl hs hnow)

/-- Noting the silence of a node. -/
theorem notes_onSilence (h : lives.Kept policy b) (hl : lives id = some life)
    (hnow : now.Both Instant.Genuine) (e : ProbeError) (grace : Nat) :
    (onSilence (life.node policy id) e grace now b).Notes policy lives id now.stamping
      (.silent now.ended grace) := by
  unfold onSilence
  dsimp only
  rw [show (life.node policy id).id = id from rfl, Life.lastSeen_node,
    Node.markUnreachable_eq h.shown h.works.plain (Lives.records_of_some policy hl)]
  rcases h.goOn hl (.silent now.ended grace) hnow.ended _
    (Life.node_silent policy id life now.stamping now.ended grace)
    (fun _ => (h.fits hl).capabilities) hnow.stamping with ⟨b', hstamp, hcommit, hkept⟩ | hstamp
  · rw [hstamp]
    unfold Backing.perform
    dsimp only [Except.map]
    rw [hcommit]
    exact .noted rfl hkept
  · rw [hstamp]
    exact .ended rfl h

/-- What comes of asking a node that was online or unknown goes into its life. -/
theorem notes_onOutcome (h : lives.Kept policy b) (hl : lives id = some life)
    (hs : life.status policy ∈ probedStatuses) (hnow : now.Both Instant.Genuine) (grace : Nat)
    (outcome : Except ProbeError HeartbeatResponse) :
    (onOutcome grace (life.node policy id) outcome now b).Notes policy lives id now.stamping
      (Contact.deed grace ⟨id, outcome, now⟩) := by
  cases outcome with
  | ok r => exact notes_onAnswer h hl hs hnow r
  | error e => exact notes_onSilence h hl hnow e grace

end Detector

end ControlPlane
