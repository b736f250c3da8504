import ControlPlane.Proofs.Life.Kept

/-!
# Passes in the lives of nodes

A pass asks the nodes that are online or unknown by their lives, and each contact with one goes into
its life. So after the pass the nodes have the records that their lives tell then
(`Detector.kept_pass`), and a pass that finished has had one contact with each of them
(`Detector.contacts_of_finished`).
-/

namespace ControlPlane

variable {policy : StatusPolicy} {clock : Instant → Prop} {lives : Lives} {grace : Nat}

/-! ## Lives after contacts -/

namespace Lives

open Detector (Contact)

theorem afterContacts_of_notMem {id : String} {cs : List Contact}
    (h : id ∉ cs.map Contact.node) : lives.afterContacts grace cs id = lives id := by
  induction cs generalizing lives with
  | nil => rfl
  | cons c cs ih =>
    rw [List.map_cons, List.mem_cons, not_or] at h
    exact (ih h.2).trans (Function.update_of_ne h.1 _ _)

/-- A node that there is one contact with goes on by it. -/
theorem afterContacts_of_mem (lives : Lives) (grace : Nat) {c : Contact} {cs : List Contact}
    (hn : (cs.map Contact.node).Nodup) (hc : c ∈ cs) :
    lives.afterContacts grace cs c.node =
      (lives c.node).map (.continued · c.readings.stamping (c.deed grace)) := by
  induction cs generalizing lives with
  | nil => cases hc
  | cons d cs ih =>
    obtain ⟨hd, hn⟩ := List.nodup_cons.1 hn
    rcases List.mem_cons.1 hc with rfl | hc
    · exact (afterContacts_of_notMem hd).trans (Function.update_self _ _ _)
    · have hid : c.node ≠ d.node := fun he => hd (he ▸ List.mem_map_of_mem hc)
      refine (ih (lives.goOn d.node d.readings.stamping (d.deed grace)) hn hc).trans ?_
      rw [goOn, Function.update_of_ne hid]

end Lives

namespace Detector

variable {σ : Type} {ask : Prober σ} {scene : Scene σ} {ns : List Node} {o : Outcome σ}

/-! ## Passes that finished -/

/-- A pass that finished asked each node and had one contact with it. -/
theorem asked_of_finished (h : (visit ask grace ns scene).ending = .finished) :
    (visit ask grace ns scene).asked = ns.map Node.id ∧
      (contacts ask grace ns scene).map Contact.node = ns.map Node.id := by
  induction ns generalizing scene with
  | nil => exact ⟨rfl, rfl⟩
  | cons n ns ih =>
    rcases hask : ask n scene with ⟨_ | outcome, scene'⟩
    · rw [(visit_interrupted grace ns hask).1] at h
      cases h
    · cases hgo : (onOutcome grace n outcome scene'.readings scene'.backing).stopped with
      | true =>
        rw [(visit_stopped ns hask hgo).1] at h
        cases h
      | false =>
        rw [visit_cons hask hgo] at h
        rw [visit_cons hask hgo, contacts_cons hask hgo, List.map_cons, List.map_cons]
        obtain ⟨hasked, hcontacts⟩ := ih h
        exact ⟨congrArg (n.id :: ·) hasked, congrArg (n.id :: ·) hcontacts⟩

/-- A pass is interrupted only where nothing comes of asking a node. -/
theorem ending_ne_interrupted
    (h : ∀ x ∈ occasions ask grace ns scene, (ask x.node x.scene).1 ≠ none) :
    (visit ask grace ns scene).ending ≠ .interrupted := by
  induction ns generalizing scene with
  | nil => nofun
  | cons n ns ih =>
    have hn : (ask n scene).1 ≠ none := h ⟨n, scene⟩ List.mem_cons_self
    rcases hask : ask n scene with ⟨_ | outcome, scene'⟩
    · rw [hask] at hn
      exact absurd rfl hn
    · cases hgo : (onOutcome grace n outcome scene'.readings scene'.backing).stopped with
      | true =>
        rw [(visit_stopped ns hask hgo).1]
        nofun
      | false =>
        rw [occasions_cons hask hgo] at h
        rw [visit_cons hask hgo]
        exact ih fun x hx => h x (List.mem_cons_of_mem _ hx)

/-- A pass that is not cut short finished. -/
theorem finished_of_pass (ho : pass ask grace scene = .ok o)
    (h : ∀ x ∈ passOccasions ask grace scene, (ask x.node x.scene).1 ≠ none)
    (he : o.ending ≠ .noLaterTime) : o.ending = .finished := by
  obtain ⟨ns, hns, rfl⟩ := visit_of_pass ho
  rw [passOccasions_of_probed ask grace hns] at h
  have hi := ending_ne_interrupted h
  revert he hi
  cases (visit ask grace ns scene).ending <;> simp

/-! ## The nodes that are asked -/

/-- Whether a node is one of those to be asked, as its life tells its record. -/
def Listed (policy : StatusPolicy) (lives : Lives) (n : Node) : Prop :=
  ∃ id life, lives id = some life ∧ n = life.node policy id ∧ life.status policy ∈ probedStatuses

/-- A pass begins with the list of all nodes that are to be asked. -/
theorem listed_of_kept {b : Backing} (h : lives.Kept policy b) :
    ∃ ns, nodesWithStatus b.store probedStatuses = .ok ns ∧ (ns.map Node.id).Nodup ∧
      ∀ n, n ∈ ns ↔ Listed policy lives n := by
  obtain ⟨as, has, hsorted, hmem⟩ := h.shown.list h.works.plain
  have hnodup : (as.map Node.id).Nodup := by
    rw [List.Nodup, List.pairwise_map]
    refine hsorted.imp ?_
    intro a b hlt he
    have hlt : a.id < b.id := hlt
    rw [he] at hlt
    exact String.lt_irrefl _ hlt
  refine ⟨as.filter fun n => probedStatuses.contains n.status, ?_,
    hnodup.sublist (List.filter_sublist.map _), ?_⟩
  · rw [nodesWithStatus, has]
    rfl
  · intro n
    rw [List.mem_filter, hmem]
    constructor
    · rintro ⟨hn, hs⟩
      obtain ⟨life, hl, hnode⟩ := Option.map_eq_some_iff.1 hn
      refine ⟨_, life, hl, hnode.symm, ?_⟩
      rw [← hnode] at hs
      exact List.contains_iff_mem.1 hs
    · rintro ⟨id, life, hl, rfl, hs⟩
      exact ⟨Lives.records_of_some policy hl, List.contains_iff_mem.2 hs⟩

theorem Listed.goOn {id : String} {n : Node} (h : Listed policy lives n) (hn : n.id ≠ id)
    (now : Instant) (deed : Deed) : Listed policy (lives.goOn id now deed) n := by
  obtain ⟨id', life, hl, rfl, hs⟩ := h
  have hid : id' ≠ id := hn
  exact ⟨id', life, (Function.update_of_ne hid _ _).trans hl, rfl, hs⟩

/-- While nodes are asked they have the records that their lives tell. -/
theorem kept_visit (hclock : ∀ t, clock t → t.Genuine) {ns : List Node}
    (hnodup : (ns.map Node.id).Nodup) (h : lives.Kept policy scene.backing)
    (hlisted : ∀ n ∈ ns, Listed policy lives n)
    (hs : ∀ x ∈ occasions ask grace ns scene, x.Calm clock ask) :
    (lives.afterContacts grace (contacts ask grace ns scene)).Kept policy
      (visit ask grace ns scene).scene.backing := by
  induction ns generalizing scene lives with
  | nil => exact h
  | cons n ns ih =>
    obtain ⟨hn, hrest⟩ := List.nodup_cons.1 hnodup
    obtain ⟨⟨id, life, hl, rfl, hstatus⟩, hothers⟩ := List.forall_mem_cons.1 hlisted
    obtain ⟨hbacking, hc⟩ := hs ⟨life.node policy id, scene⟩ List.mem_cons_self
    dsimp only at hbacking hc
    rcases hask : ask (life.node policy id) scene with ⟨_ | outcome, scene'⟩
    · rw [hask] at hbacking
      rw [(visit_interrupted grace ns hask).1, contacts_interrupted grace ns hask]
      dsimp only at hbacking ⊢
      rw [hbacking]
      exact h
    · rw [hask] at hbacking hc
      dsimp only at hbacking hc
      rw [← hbacking] at h
      cases notes_onOutcome h hl hstatus (hc.mono hclock) grace outcome with
      | noted went kept =>
        rw [occasions_cons hask went] at hs
        rw [visit_cons hask went, contacts_cons hask went]
        refine ih hrest kept ?_ fun x hx => hs x (List.mem_cons_of_mem _ hx)
        intro m hm
        have hid : m.id ≠ id := fun he => hn (List.mem_map.2 ⟨m, hm, he⟩)
        exact (hothers m hm).goOn hid _ _
      | ended stopped kept =>
        rw [(visit_stopped ns hask stopped).1, contacts_stopped ns hask stopped]
        exact kept

/-- After a pass the nodes have the records that their lives tell then. -/
theorem kept_pass (hclock : ∀ t, clock t → t.Genuine) (h : lives.Kept policy scene.backing)
    (hs : Calm clock ask grace scene) {o : Outcome σ} (ho : pass ask grace scene = .ok o) :
    (lives.afterContacts grace (passContacts ask grace scene)).Kept policy o.scene.backing := by
  obtain ⟨ns, hns, hnodup, hlisted⟩ := listed_of_kept h
  obtain rfl := Except.ok.inj ((pass_of_probed grace hns).symm.trans ho)
  rw [passContacts_of_probed ask grace hns]
  refine kept_visit hclock hnodup h (fun n hn => (hlisted n).1 hn) ?_
  rw [← passOccasions_of_probed ask grace hns]
  exact hs

/-- A pass that finished asked the nodes that are online or unknown by their lives, once each, and
had a contact with every one. -/
theorem contacts_of_finished (h : lives.Kept policy scene.backing)
    (ho : pass ask grace scene = .ok o) (hfinished : o.ending = .finished) :
    o.asked = (passContacts ask grace scene).map Contact.node ∧ o.asked.Nodup ∧
      ∀ id life, lives id = some life → (id ∈ o.asked ↔ life.status policy ∈ probedStatuses) := by
  obtain ⟨ns, hns, hnodup, hlisted⟩ := listed_of_kept h
  obtain rfl := Except.ok.inj ((pass_of_probed grace hns).symm.trans ho)
  obtain ⟨hasked, hcontacts⟩ := asked_of_finished hfinished
  rw [passContacts_of_probed ask grace hns, hcontacts, hasked]
  refine ⟨rfl, hnodup, ?_⟩
  intro id life hl
  rw [List.mem_map]
  constructor
  · rintro ⟨n, hn, rfl⟩
    obtain ⟨id', life', hl', rfl, hstatus⟩ := (hlisted n).1 hn
    obtain rfl := Option.some.inj (hl'.symm.trans hl)
    exact hstatus
  · intro hstatus
    exact ⟨life.node policy id, (hlisted _).2 ⟨id, life, hl, rfl, hstatus⟩, rfl⟩

/-- The life of a node that was online or unknown goes on by a contact when a pass finished. -/
theorem exists_contact (h : lives.Kept policy scene.backing) (ho : pass ask grace scene = .ok o)
    (hfinished : o.ending = .finished) {id : String} {life : Life} (hl : lives id = some life)
    (hstatus : life.status policy ∈ probedStatuses) :
    ∃ c ∈ passContacts ask grace scene, c.node = id ∧
      lives.afterContacts grace (passContacts ask grace scene) id =
        some (.continued life c.readings.stamping (c.deed grace)) := by
  obtain ⟨hasked, hnodup, hmem⟩ := contacts_of_finished h ho hfinished
  have hcontacted := (hmem id life hl).2 hstatus
  rw [hasked] at hcontacted hnodup
  obtain ⟨c, hc, rfl⟩ := List.mem_map.1 hcontacted
  refine ⟨c, hc, rfl, ?_⟩
  rw [Lives.afterContacts_of_mem lives grace hnodup hc, hl]
  rfl

end Detector

end ControlPlane
