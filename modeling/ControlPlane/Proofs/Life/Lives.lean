import ControlPlane.Proofs.Api.Decision
import ControlPlane.Proofs.Detector.Occasions
import ControlPlane.Proofs.Life.Basic
import Mathlib.Logic.Function.Basic

/-!
# The lives of all nodes

The nodes that are there have lives, which go on by the commands that are obeyed
(`Lives.afterRequest`) and by the contacts of the detector with the nodes (`Lives.afterContacts`).
What holds of every new life and goes on to hold, whatever is done, holds of all lives
(`Lives.All`).
-/

namespace ControlPlane

open Api (Command Reply)

/-- The lives of the nodes that are there, by id. -/
abbrev Lives := String → Option Life

namespace Lives

/-- The records of the nodes. -/
def records (policy : StatusPolicy) (lives : Lives) (id : String) : Option Node :=
  (lives id).map (Life.node policy id)

/-- Something is done to a node, if it is there. -/
def goOn (id : String) (now : Instant) (deed : Deed) (lives : Lives) : Lives :=
  Function.update lives id ((lives id).map (.continued · now deed))

/-- The lives after a command was obeyed. `fresh` is the id for a new node. -/
def afterCommand (fresh : String) (now : Instant) (lives : Lives) : Command → Lives
  | .registerNode form => Function.update lives fresh (some (.registered form now))
  | .patchNode id patch => lives.goOn id now (.patched patch)
  | .setNodeStatus id status => lives.goOn id now (.statusSet status)
  | .removeNode id => Function.update lives id none
  | _ => lives

/-- The lives after a request: it was obeyed if the response tells so. -/
def afterRequest (fresh : String) (now : Instant) (r : Http.Request)
    (response : Option Http.Response) (lives : Lives) : Lives :=
  match Command.ofRequest r, response with
  | .ok c, some a => if a.status = 200 then lives.afterCommand fresh now c else lives
  | _, _ => lives

end Lives

/-! ## The contacts of a pass -/

namespace Detector

/-- That a node was asked, what came of it, and what the clock showed while it was dealt with. -/
structure Contact where
  node : String
  outcome : Except ProbeError HeartbeatResponse
  readings : Readings

/-- What a contact is to the node. -/
def Contact.deed (grace : Nat) (c : Contact) : Deed :=
  match c.outcome with
  | .ok _ => .answered c.readings.ended
  | .error _ => .silent c.readings.ended grace

/-- The contact that an occasion comes to, if something came of asking and it was noted. -/
def Occasion.contact? {σ : Type} (ask : Prober σ) (grace : Nat) (x : Occasion σ) :
    Option Contact :=
  match ask x.node x.scene with
  | (none, _) => none
  | (some outcome, scene) =>
    if (onOutcome grace x.node outcome scene.readings scene.backing).stopped then none
    else some ⟨x.node.id, outcome, scene.readings⟩

/-- The contacts with nodes that are asked in their order. -/
def contacts {σ : Type} (ask : Prober σ) (grace : Nat) (ns : List Node) (scene : Scene σ) :
    List Contact :=
  (occasions ask grace ns scene).filterMap (Occasion.contact? ask grace)

/-- The contacts of a pass. -/
def passContacts {σ : Type} (ask : Prober σ) (grace : Nat) (scene : Scene σ) : List Contact :=
  (passOccasions ask grace scene).filterMap (Occasion.contact? ask grace)

section Contacts

variable {σ : Type} {ask : Prober σ} {grace : Nat} {scene scene' : Scene σ} {n : Node}
  {ns : List Node} {outcome : Except ProbeError HeartbeatResponse}

theorem passContacts_of_probed (ask : Prober σ) (grace : Nat)
    (hns : nodesWithStatus scene.backing.store probedStatuses = .ok ns) :
    passContacts ask grace scene = contacts ask grace ns scene := by
  rw [passContacts, passOccasions_of_probed ask grace hns]
  rfl

theorem contacts_interrupted (grace : Nat) (ns : List Node) (hask : ask n scene = (none, scene')) :
    contacts ask grace (n :: ns) scene = [] := by
  have hcontact : Occasion.contact? ask grace ⟨n, scene⟩ = none := by
    rw [Occasion.contact?, hask]
  rw [contacts, (visit_interrupted grace ns hask).2, List.filterMap_cons_none hcontact]
  rfl

theorem contacts_stopped (ns : List Node) (hask : ask n scene = (some outcome, scene'))
    (hstopped : (onOutcome grace n outcome scene'.readings scene'.backing).stopped = true) :
    contacts ask grace (n :: ns) scene = [] := by
  have hcontact : Occasion.contact? ask grace ⟨n, scene⟩ = none := by
    rw [Occasion.contact?, hask]
    exact if_pos hstopped
  rw [contacts, (visit_stopped ns hask hstopped).2, List.filterMap_cons_none hcontact]
  rfl

theorem contacts_cons (hask : ask n scene = (some outcome, scene'))
    (hgo : (onOutcome grace n outcome scene'.readings scene'.backing).stopped = false) :
    contacts ask grace (n :: ns) scene = ⟨n.id, outcome, scene'.readings⟩ ::
      contacts ask grace ns { scene' with
        backing := (onOutcome grace n outcome scene'.readings scene'.backing).backing } := by
  have hcontact : Occasion.contact? ask grace ⟨n, scene⟩ =
      some ⟨n.id, outcome, scene'.readings⟩ := by
    rw [Occasion.contact?, hask]
    dsimp only
    rw [hgo]
    rfl
  rw [contacts, occasions_cons hask hgo, List.filterMap_cons_some hcontact]
  rfl

/-- Every contact came of an occasion. -/
theorem exists_of_mem_passContacts {c : Contact} (hc : c ∈ passContacts ask grace scene) :
    ∃ x ∈ passOccasions ask grace scene, (ask x.node x.scene).1 = some c.outcome ∧
      c.node = x.node.id ∧ c.readings = (ask x.node x.scene).2.readings := by
  obtain ⟨x, hx, hcontact⟩ := List.mem_filterMap.1 hc
  refine ⟨x, hx, ?_⟩
  unfold Occasion.contact? at hcontact
  rcases hask : ask x.node x.scene with ⟨_ | outcome, scene'⟩
  · rw [hask] at hcontact
    cases hcontact
  · rw [hask] at hcontact
    dsimp only at hcontact
    split at hcontact
    · cases hcontact
    · cases hcontact
      exact ⟨rfl, rfl, rfl⟩

/-- In a calm pass the clock shows its times in every contact. -/
theorem Calm.readings_of_mem {clock : Instant → Prop} (h : Calm clock ask grace scene)
    {c : Contact} (hc : c ∈ passContacts ask grace scene) : c.readings.Both clock := by
  obtain ⟨x, hx, -, -, hreadings⟩ := exists_of_mem_passContacts hc
  exact hreadings ▸ (h x hx).readings

/-- The time of a deed is when it was known what came of asking. -/
theorem Contact.shows_deed {P : Instant → Prop} {c : Contact} (h : P c.readings.ended) :
    (c.deed grace).Shows P := by
  unfold Contact.deed
  split <;> exact h

end Contacts

end Detector

/-- The lives after contacts with nodes. -/
def Lives.afterContacts (grace : Nat) (lives : Lives) : List Detector.Contact → Lives
  | [] => lives
  | c :: cs =>
    (lives.goOn c.node c.readings.stamping (c.deed grace)).afterContacts grace cs

namespace Lives

/-! ## Records -/

section Records

variable (policy : StatusPolicy) (lives : Lives) (id : String)

theorem records_of_some {lives : Lives} {id : String} {life : Life} (h : lives id = some life) :
    lives.records policy id = some (life.node policy id) := by
  rw [records, h]
  rfl

theorem records_update (o : Option Life) :
    records policy (Function.update lives id o) =
      Function.update (lives.records policy) id (o.map (Life.node policy id)) :=
  funext fun k => Function.apply_update (fun id o => o.map (Life.node policy id)) lives id o k

theorem goOn_of_some {lives : Lives} {id : String} {life : Life} (h : lives id = some life)
    (now : Instant) (deed : Deed) :
    lives.goOn id now deed = Function.update lives id (some (.continued life now deed)) := by
  rw [goOn, h]
  rfl

end Records

/-! ## Requests -/

section Requests

variable {lives : Lives} {fresh : String} {now : Instant} {c : Command} {r : Http.Request}
  {reply : Reply} {response : Option Http.Response}

theorem afterCommand_of_looks (h : c.looks = true) : lives.afterCommand fresh now c = lives := by
  cases c with
  | registerNode form | patchNode id patch | setNodeStatus id status | removeNode id => cases h
  | _ => rfl

theorem afterRequest_of_status (hr : Command.ofRequest r = .ok c) {a : Http.Response}
    (ha : a.status = 200) :
    lives.afterRequest fresh now r (some a) = lives.afterCommand fresh now c := by
  unfold afterRequest
  rw [hr]
  exact if_pos ha

theorem afterRequest_of_isDone (h : reply.ShownBy response) (hd : reply.isDone = true)
    (hr : Command.ofRequest r = .ok c) :
    lives.afterRequest fresh now r response = lives.afterCommand fresh now c := by
  obtain ⟨a, rfl, hstatus⟩ := h.isDone_iff.1 hd
  exact afterRequest_of_status hr hstatus

theorem afterRequest_of_not_isDone (h : reply.ShownBy response) (hd : reply.isDone = false) :
    lives.afterRequest fresh now r response = lives := by
  have hstatus : ∀ a, response = some a → a.status ≠ 200 := fun a ha hs => by
    rw [h.isDone_iff.2 ⟨a, ha, hs⟩] at hd
    cases hd
  unfold afterRequest
  split
  · exact if_neg (hstatus _ rfl)
  · rfl

/-- A request leaves the lives alone or is obeyed. -/
theorem afterRequest_cases (fresh : String) (now : Instant) (r : Http.Request)
    (response : Option Http.Response) (lives : Lives) :
    lives.afterRequest fresh now r response = lives ∨ ∃ c, Command.ofRequest r = .ok c ∧
      lives.afterRequest fresh now r response = lives.afterCommand fresh now c := by
  unfold afterRequest
  cases Command.ofRequest r with
  | error why => exact .inl rfl
  | ok c =>
    cases response with
    | none => exact .inl rfl
    | some a =>
      by_cases ha : a.status = 200
      · exact .inr ⟨c, rfl, if_pos ha⟩
      · exact .inl (if_neg ha)

end Requests

/-! ## Properties of all lives -/

/-- Whether all lives have a property. -/
def All (Q : Life → Prop) (lives : Lives) : Prop :=
  ∀ id life, lives id = some life → Q life

namespace All

variable {Q : Life → Prop} {P : Instant → Prop} {lives : Lives} {now : Instant}

theorem update (h : lives.All Q) (id : String) {o : Option Life}
    (ho : ∀ life, o = some life → Q life) : All Q (Function.update lives id o) := by
  intro k life hl
  by_cases hk : k = id
  · subst hk
    rw [Function.update_self] at hl
    exact ho life hl
  · rw [Function.update_of_ne hk] at hl
    exact h k life hl

theorem goOn (h : lives.All Q) (id : String) {deed : Deed}
    (hstep : ∀ life, Q life → Q (.continued life now deed)) : All Q (lives.goOn id now deed) := by
  apply h.update id
  intro life hl
  obtain ⟨earlier, he, rfl⟩ := Option.map_eq_some_iff.1 hl
  exact hstep earlier (h id earlier he)

theorem afterCommand (h : lives.All Q) (hfirst : ∀ form, Q (.registered form now))
    (hstep : ∀ life deed, deed.Shows P → Q life → Q (.continued life now deed)) (fresh : String)
    (c : Command) : All Q (lives.afterCommand fresh now c) := by
  cases c with
  | registerNode form =>
    exact h.update fresh fun life hl => Option.some.inj hl ▸ hfirst form
  | patchNode id patch => exact h.goOn id fun life => hstep life _ trivial
  | setNodeStatus id status => exact h.goOn id fun life => hstep life _ trivial
  | removeNode id => exact h.update id nofun
  | _ => exact h

theorem afterRequest (h : lives.All Q) (hfirst : ∀ form, Q (.registered form now))
    (hstep : ∀ life deed, deed.Shows P → Q life → Q (.continued life now deed)) (fresh : String)
    (r : Http.Request) (response : Option Http.Response) :
    All Q (lives.afterRequest fresh now r response) := by
  rcases afterRequest_cases fresh now r response lives with he | ⟨c, -, he⟩
  · rw [he]
    exact h
  · rw [he]
    exact h.afterCommand hfirst hstep fresh c

theorem afterContacts {grace : Nat} {cs : List Detector.Contact} (h : lives.All Q)
    (hstep : ∀ c ∈ cs, ∀ life, Q life →
      Q (.continued life c.readings.stamping (c.deed grace))) :
    All Q (lives.afterContacts grace cs) := by
  induction cs generalizing lives with
  | nil => exact h
  | cons c cs ih =>
    obtain ⟨hc, hcs⟩ := List.forall_mem_cons.1 hstep
    exact ih (h.goOn c.node hc) hcs

end All

end Lives

end ControlPlane
