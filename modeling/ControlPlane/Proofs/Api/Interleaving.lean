import ControlPlane.Proofs.Api.WellFormed
import ControlPlane.Proofs.Life.Fields
import ControlPlane.Proofs.Registry.Registration

/-!
# Two patches at once

A patch looks the record of a node up and replaces it later, and in between another patch of the
same node may do either (`Race`). A patch that takes both steps without a pause is the one that a
request makes (`Race.turn_turn`). Where one patch is answered before the other begins, both are in
the record. Where both looked the record up before one replaced it, the one that replaces it last
undoes the other (`Race.patches_interleaved`).
-/

namespace ControlPlane

/-! ## What patches give -/

/-- The fields of a node that patches give. -/
def Node.declared (n : Node) : Api.NodeForm :=
  ⟨n.name, n.ip, n.port, n.metadata, n.network, n.capabilities, n.assignedReplicas⟩

namespace Api

namespace NodePatch

/-- Whether no field is given by both of two patches. -/
structure Disjoint (p q : NodePatch) : Prop where
  name : p.name = none ∨ q.name = none
  ip : p.ip = none ∨ q.ip = none
  port : p.port = none ∨ q.port = none
  metadata : p.metadata = none ∨ q.metadata = none
  network : p.network = none ∨ q.network = none
  capabilities : p.capabilities = none ∨ q.capabilities = none
  assignedReplicas : p.assignedReplicas = none ∨ q.assignedReplicas = none

/-- Whether every node can be stored with a patch, and is then read with the numbers given. -/
structure Sound (p : NodePatch) : Prop where
  fits : ∀ n : Node, n.Fits → (p.apply n).Fits
  survives : p.Survives

/-- Whether a node has the values of a patch in its fields, so that the patch leaves it as it is. -/
def Holds (p : NodePatch) (n : Node) : Prop :=
  p.apply n = n

variable {p q : NodePatch} {n m : Node}

theorem getD_getD_self {α : Type} (o : Option α) (a : α) : o.getD (o.getD a) = o.getD a := by
  cases o <;> rfl

theorem getD_getD_comm {α : Type} {o o' : Option α} (h : o = none ∨ o' = none) (a : α) :
    o.getD (o'.getD a) = o'.getD (o.getD a) := by
  rcases h with rfl | rfl <;> rfl

theorem holds_apply (p : NodePatch) (n : Node) : p.Holds (p.apply n) := by
  simp only [Holds, apply, getD_getD_self]

theorem apply_comm (h : p.Disjoint q) (n : Node) : p.apply (q.apply n) = q.apply (p.apply n) := by
  simp only [apply, getD_getD_comm h.name, getD_getD_comm h.ip, getD_getD_comm h.port,
    getD_getD_comm h.metadata, getD_getD_comm h.network, getD_getD_comm h.capabilities,
    getD_getD_comm h.assignedReplicas]

/-- What a patch makes of the fields that patches give depends on these alone. -/
theorem declared_apply_congr (p : NodePatch) (h : n.declared = m.declared) :
    (p.apply n).declared = (p.apply m).declared := by
  simp only [Node.declared, NodeForm.mk.injEq] at h
  obtain ⟨hname, hip, hport, hmetadata, hnetwork, hcapabilities, hassigned⟩ := h
  simp only [Node.declared, apply, hname, hip, hport, hmetadata, hnetwork, hcapabilities, hassigned]

theorem holds_iff : p.Holds n ↔ (p.apply n).declared = n.declared := by
  constructor
  · intro h
    rw [h]
  · intro h
    simp only [Node.declared, NodeForm.mk.injEq] at h
    obtain ⟨hname, hip, hport, hmetadata, hnetwork, hcapabilities, hassigned⟩ := h
    simp only [apply] at hname hip hport hmetadata hnetwork hcapabilities hassigned
    simp only [Holds, apply, hname, hip, hport, hmetadata, hnetwork, hcapabilities, hassigned]

theorem Holds.congr (h : p.Holds m) (hd : n.declared = m.declared) : p.Holds n := by
  rw [holds_iff, p.declared_apply_congr hd, hd]
  exact holds_iff.1 h

theorem Disjoint.symm (h : p.Disjoint q) : q.Disjoint p :=
  ⟨h.name.symm, h.ip.symm, h.port.symm, h.metadata.symm, h.network.symm, h.capabilities.symm,
    h.assignedReplicas.symm⟩

/-- A node after two patches that give different fields has the values of both. -/
theorem holds_both {patches : Bool → NodePatch} (h : (patches false).Disjoint (patches true))
    {first : Bool}
    (hn : n.declared = ((patches !first).apply ((patches first).apply m)).declared) :
    ∀ who, (patches who).Holds n := by
  have hdisjoint : (patches !first).Disjoint (patches first) := by
    cases first with
    | false => exact h.symm
    | true => exact h
  intro who
  obtain rfl | rfl := Bool.eq_or_eq_not who first
  · rw [apply_comm hdisjoint] at hn
    exact (holds_apply _ _).congr hn
  · exact (holds_apply _ _).congr hn

end NodePatch

/-! ## Patches in steps -/

/-- How far a patch has come. Between looking the record up and replacing it, it holds the record
that it found. -/
inductive Patching where
  | waiting
  | holding (read : Node)
  | answered (result : Except RegistryError Unit)

/-- Two patches of a node on their way. -/
structure Race where
  backing : Backing
  stage : Bool → Patching

namespace Race

/-- Before either patch looks the record up. -/
def start (b : Backing) : Race :=
  ⟨b, fun _ => .waiting⟩

/-- A race with another store, after one of the patches came to a stage. -/
def advance (r : Race) (b : Backing) (who : Bool) (s : Patching) : Race :=
  ⟨b, Function.update r.stage who s⟩

section Definitions

variable (id : String) (patches : Bool → NodePatch)

/-- The next step of one of the patches, if it has one left. -/
def turn (r : Race) (who : Bool) (now : Instant) : Race :=
  match r.stage who with
  | .waiting =>
    match nodes.require r.backing.store id with
    | .ok read => r.advance r.backing who (.holding read)
    | .error e => r.advance r.backing who (.answered (.error e))
  | .holding read =>
    let (result, b) := r.backing.perform
      ((finishPatch r.backing.store now id (patches who) read).map fun c => (c, ()))
    r.advance b who (.answered result)
  | .answered _ => r

/-- The steps of the patches in some order, each at its time. -/
def run (r : Race) : List (Bool × Instant) → Race
  | [] => r
  | (who, now) :: rest => run (turn id patches r who now) rest

end Definitions

variable {id : String} {patches : Bool → NodePatch} {r : Race} {who : Bool}

section Stages

variable (r : Race) (b b' : Backing) (who : Bool) (s s' : Patching)

@[simp]
theorem stage_advance : (r.advance b who s).stage who = s := by
  unfold advance
  exact Function.update_self _ _ _

@[simp]
theorem stage_advance_not : (r.advance b who s).stage (!who) = r.stage (!who) := by
  unfold advance
  exact Function.update_of_ne (Bool.not_ne_self who) _ _

@[simp]
theorem advance_advance : (r.advance b who s).advance b' who s' = r.advance b' who s' := by
  rw [advance, advance, Function.update_idem]
  rfl

end Stages

section Turns

variable {read : Node} {x : Except RegistryError Unit}

theorem turn_of_waiting (h : r.stage who = .waiting)
    (hread : nodes.require r.backing.store id = .ok read) (now : Instant) :
    turn id patches r who now = r.advance r.backing who (.holding read) := by
  rw [turn, h, hread]

theorem turn_of_absent (h : r.stage who = .waiting) {e : RegistryError}
    (hread : nodes.require r.backing.store id = .error e) (now : Instant) :
    turn id patches r who now = r.advance r.backing who (.answered (.error e)) := by
  rw [turn, h, hread]

theorem turn_of_holding (h : r.stage who = .holding read) {now : Instant} {b : Backing}
    (hp : r.backing.perform ((finishPatch r.backing.store now id (patches who) read).map
      fun c => (c, ())) = (x, b)) :
    turn id patches r who now = r.advance b who (.answered x) := by
  rw [turn, h]
  dsimp only
  rw [hp]

theorem turn_of_answered (h : r.stage who = .answered x) (now : Instant) :
    turn id patches r who now = r := by
  rw [turn, h]

/-- A patch that takes both steps without a pause is a patch made at once. -/
theorem turn_turn (h : r.stage who = .waiting) (now : Instant) {now' : Instant} {b : Backing}
    (hp : r.backing.perform ((applyPatch r.backing.store now' id (patches who)).map
      fun c => (c, ())) = (x, b)) :
    turn id patches (turn id patches r who now) who now' = r.advance b who (.answered x) := by
  unfold applyPatch at hp
  cases hread : nodes.require r.backing.store id with
  | error e =>
    rw [hread] at hp
    obtain ⟨rfl, rfl⟩ := Prod.mk.inj hp
    rw [turn_of_absent h hread]
    exact turn_of_answered (stage_advance _ _ _ _) now'
  | ok read =>
    rw [hread] at hp
    rw [turn_of_waiting h hread, turn_of_holding (stage_advance _ _ _ _) hp, advance_advance]

/-- An answer is given once. -/
theorem stage_turn (h : r.stage who = .answered x) (other : Bool) (now : Instant) :
    (turn id patches r other now).stage who = .answered x := by
  obtain rfl | rfl := Bool.eq_or_eq_not who other
  · rw [turn_of_answered h, h]
  · unfold turn
    split
    · split
      · rw [stage_advance_not, h]
      · rw [stage_advance_not, h]
    · rw [stage_advance_not, h]
    · exact h

theorem stage_run (h : r.stage who = .answered x) (schedule : List (Bool × Instant)) :
    (run id patches r schedule).stage who = .answered x := by
  induction schedule generalizing r with
  | nil => exact h
  | cons t rest ih => exact ih (stage_turn h t.1 t.2)

/-- Nothing happens once both patches are answered. -/
theorem run_of_answered (h : ∀ who, ∃ x, r.stage who = .answered x)
    (schedule : List (Bool × Instant)) : run id patches r schedule = r := by
  induction schedule with
  | nil => rfl
  | cons t rest ih =>
    obtain ⟨x, hx⟩ := h t.1
    rw [run, turn_of_answered hx, ih]

end Turns

/-! ## The record that is there -/

/-- Whether a store that works has a node under an id whose numbers survive. -/
structure Stored (id : String) (b : Backing) (n : Node) : Prop where
  works : b.Works
  named : id ≠ ""
  finds : nodes.Finds b.store.data id n
  own : n.id = id
  survives : n.capabilities.Survives

section Stored

variable {b : Backing} {n read : Node} {now stamp : Instant} {patch : NodePatch}

theorem Stored.fits (h : Stored id b n) : n.Fits := by
  obtain ⟨bs, -, hbs⟩ := h.finds
  exact Node.fits_iff.1 (nodes.laws.fits_of_ofBytes hbs)

theorem Stored.require (h : Stored id b n) : nodes.require b.store id = .ok n :=
  (Registry.require_eq_ok h.works.plain).2 ⟨h.named, h.finds⟩

theorem Stored.get (h : Stored id b n) : nodes.get b.store id = .ok (some n) :=
  (Registry.get_eq_ok h.works.plain).2 ⟨h.named, .inr ⟨n, rfl, h.finds⟩⟩

theorem Stored.of_wellFormed (hb : b.Works) (h : b.store.data.WellFormed)
    (hn : nodes.Finds b.store.data id n) (hs : n.capabilities.Survives) : Stored id b n := by
  obtain ⟨bs, hbs, hd⟩ := hn
  obtain ⟨m, hm, hne, hkey, -⟩ :=
    h.toSound.keeps_nodes _ (KeyMap.mem_of_get? hbs) (nodes.beginsWith_key id)
  obtain rfl : m = n := Except.ok.inj (hm.symm.trans hd)
  obtain rfl : id = nodes.idOf m := Registry.key_inj hkey
  exact ⟨hb, hne, ⟨bs, hbs, hd⟩, rfl, hs⟩

/-- A record that was looked up, maybe in an earlier store, replaces the one that is there, and gets
a stamp after the one that that one has. -/
theorem Stored.finishPatch_eq {b₀ : Backing} (h : Stored id b n) (hread : Stored id b₀ read)
    (patch : NodePatch) (now : Instant) :
    finishPatch b.store now id patch read = (nextStamp now n.updatedAt).map fun t =>
      nodes.write id (((patch.apply read).inheriting n).updated t) :=
  Node.update_of_get h.named (show (patch.apply read).id = id from hread.own) h.get now

/-- If there is such a stamp, the fields that patches give are those of the record looked up, with
the patch. -/
theorem Stored.perform {b₀ : Backing} (h : Stored id b n) (hread : Stored id b₀ read)
    (hpatch : patch.Sound) (hnow : now.inRange = true)
    (hstamp : nextStamp now n.updatedAt = .ok stamp) :
    ∃ b' n', b.perform ((finishPatch b.store now id patch read).map fun c => (c, ())) =
        (.ok (), b') ∧
      Stored id b' n' ∧ n'.declared = (patch.apply read).declared ∧
      n'.updatedAt = some stamp.settled := by
  have hdecide : finishPatch b.store now id patch read =
      .ok (nodes.write id (((patch.apply read).inheriting n).updated stamp)) := by
    rw [h.finishPatch_eq hread, hstamp]
    rfl
  have hfits := ((hpatch.fits read hread.fits).inheriting h.fits).updated
    (nextStamp_yields hnow stamp hstamp)
  have hsurvives : (patch.apply read).capabilities.Survives := by
    show (patch.capabilities.getD read.capabilities).Survives
    cases hc : patch.capabilities with
    | none => exact hread.survives
    | some c => exact hpatch.survives c hc
  have hcapabilities := Capabilities.settle_eq hsurvives
  obtain ⟨b', hc, hb', hdata⟩ :=
    h.works.commit (c := nodes.write id (((patch.apply read).inheriting n).updated stamp))
      (nodes.key_ne_empty id)
  refine ⟨b', nodes.laws.codec.settle (((patch.apply read).inheriting n).updated stamp), ?_,
    ⟨hb', h.named, ?_, hread.own, ?_⟩, ?_, rfl⟩
  · rw [hdecide]
    show b.perform (.ok (_, ())) = _
    rw [Backing.perform, hc]
  · rw [hdata]
    exact Registry.finds_write nodes.laws (Node.fits_iff.2 hfits) _ id
  · show (Capabilities.laws.settle (patch.apply read).capabilities).Survives
    rw [hcapabilities]
    exact hsurvives
  · have hassigned : (patch.apply read).assignedReplicas.map (fun s => s) =
        (patch.apply read).assignedReplicas := List.map_id' _
    show NodeForm.mk _ _ _ _ _ (Capabilities.laws.settle (patch.apply read).capabilities)
      ((patch.apply read).assignedReplicas.map fun s => s) = _
    rw [hcapabilities, hassigned]
    rfl

end Stored

/-! ## Whole runs -/

section Runs

variable {b : Backing} {n read : Node} {now : Instant} {x : Except RegistryError Unit}
  {schedule : List (Bool × Instant)}

/-- A patch that holds a record writes it if there is a stamp left. -/
theorem turn_stamped (h : Stored id r.backing n) (hs : r.stage who = .holding read)
    (hread : Stored id b read) (hpatch : (patches who).Sound) (hnow : now.inRange = true)
    {stamp : Instant} (hstamp : nextStamp now n.updatedAt = .ok stamp) :
    ∃ b' n', turn id patches r who now = r.advance b' who (.answered (.ok ())) ∧
      Stored id b' n' ∧ n'.declared = ((patches who).apply read).declared ∧
      n'.updatedAt = some stamp.settled := by
  obtain ⟨b', n', hp, hwritten⟩ := h.perform hread hpatch hnow hstamp
  exact ⟨b', n', turn_of_holding hs hp, hwritten⟩

/-- A patch that holds a record and is answered in the end that it is done writes it. -/
theorem turn_done (h : Stored id r.backing n) (hs : r.stage who = .holding read)
    (hread : Stored id b read) (hpatch : (patches who).Sound) (hnow : now.inRange = true)
    (hdone : (run id patches (turn id patches r who now) schedule).stage who =
      .answered (.ok ())) :
    ∃ b' n', turn id patches r who now = r.advance b' who (.answered (.ok ())) ∧
      Stored id b' n' ∧ n'.declared = ((patches who).apply read).declared := by
  cases hstamp : nextStamp now n.updatedAt with
  | ok stamp =>
    obtain ⟨b', n', hturn, hstored, hdeclared, -⟩ := turn_stamped h hs hread hpatch hnow hstamp
    exact ⟨b', n', hturn, hstored, hdeclared⟩
  | error e =>
    have hp : r.backing.perform ((finishPatch r.backing.store now id (patches who) read).map
        fun c => (c, ())) = (.error e, r.backing) := by
      rw [h.finishPatch_eq hread, hstamp]
      rfl
    have hfailed : (turn id patches r who now).stage who = .answered (.error e) := by
      rw [turn_of_holding hs hp, stage_advance]
    rw [stage_run hfailed] at hdone
    cases hdone

/-- The last patch to replace the record decides on the fields that patches give. -/
theorem run_holding (hpatches : ∀ who, (patches who).Sound)
    (hclock : ∀ t ∈ schedule, t.2.inRange = true) (h : Stored id r.backing n)
    (hs : r.stage who = .holding read) (hread : Stored id b read)
    (hother : r.stage (!who) = .answered x)
    (hdone : (run id patches r schedule).stage who = .answered (.ok ())) :
    ∃ n', Stored id (run id patches r schedule).backing n' ∧
      n'.declared = ((patches who).apply read).declared := by
  induction schedule with
  | nil =>
    rw [run, hs] at hdone
    cases hdone
  | cons t rest ih =>
    obtain ⟨other, now⟩ := t
    obtain ⟨hnow, hrest⟩ := List.forall_mem_cons.1 hclock
    rw [run] at hdone ⊢
    -- The patch takes its step now, or the other one has none left.
    obtain rfl | rfl := Bool.eq_or_eq_not other who
    · obtain ⟨b', n', hturn, hstored, hdeclared⟩ :=
        turn_done h hs hread (hpatches other) hnow hdone
      rw [hturn, run_of_answered]
      · exact ⟨n', hstored, hdeclared⟩
      · intro who
        obtain rfl | rfl := Bool.eq_or_eq_not who other
        · exact ⟨_, stage_advance _ _ _ _⟩
        · exact ⟨x, (stage_advance_not _ _ _ _).trans hother⟩
    · rw [turn_of_answered hother] at hdone ⊢
      exact ih hrest hdone

/-- A patch that begins when the other is answered is made to the record that is there then. -/
theorem run_waiting (hpatches : ∀ who, (patches who).Sound)
    (hclock : ∀ t ∈ schedule, t.2.inRange = true) (h : Stored id r.backing n)
    (hs : r.stage who = .waiting) (hother : r.stage (!who) = .answered x)
    (hdone : (run id patches r schedule).stage who = .answered (.ok ())) :
    ∃ n', Stored id (run id patches r schedule).backing n' ∧
      n'.declared = ((patches who).apply n).declared := by
  induction schedule with
  | nil =>
    rw [run, hs] at hdone
    cases hdone
  | cons t rest ih =>
    obtain ⟨other, now⟩ := t
    obtain ⟨-, hrest⟩ := List.forall_mem_cons.1 hclock
    rw [run] at hdone ⊢
    obtain rfl | rfl := Bool.eq_or_eq_not other who
    · rw [turn_of_waiting hs h.require] at hdone ⊢
      exact run_holding hpatches hrest h (stage_advance _ _ _ _) h
        ((stage_advance_not _ _ _ _).trans hother) hdone
    · rw [turn_of_answered hother] at hdone ⊢
      exact ih hrest hdone

/-- Of two patches that hold the same record, the one that replaces it last undoes the other. -/
theorem run_both (hpatches : ∀ who, (patches who).Sound)
    (hclock : ∀ t ∈ schedule, t.2.inRange = true) (h : Stored id r.backing n)
    (hs : ∀ who, r.stage who = .holding n)
    (hdone : ∀ who, (run id patches r schedule).stage who = .answered (.ok ())) :
    ∃ third rest n', schedule.map Prod.fst = third :: rest ∧
      Stored id (run id patches r schedule).backing n' ∧
      n'.declared = ((patches (!third)).apply n).declared := by
  cases schedule with
  | nil =>
    have hnone := hdone true
    rw [run, hs] at hnone
    cases hnone
  | cons t rest =>
    obtain ⟨third, now⟩ := t
    obtain ⟨hnow, hrest⟩ := List.forall_mem_cons.1 hclock
    obtain ⟨b', n₁, hturn, hstored, -⟩ :=
      turn_done h (hs third) h (hpatches third) hnow (hdone third)
    have hlast := hdone (!third)
    rw [run, hturn] at hlast ⊢
    have hother : (r.advance b' third (.answered (.ok ()))).stage (!!third) =
        .answered (.ok ()) := by
      rw [Bool.not_not, stage_advance]
    obtain ⟨n', hstored', hdeclared⟩ := run_holding hpatches hrest hstored
      ((stage_advance_not _ _ _ _).trans (hs _)) h hother hlast
    exact ⟨third, _, n', rfl, hstored', hdeclared⟩

/-- A patch that is answered before the other begins is kept by that one. -/
theorem run_apart (hpatches : ∀ who, (patches who).Sound)
    (hclock : ∀ t ∈ schedule, t.2.inRange = true) (h : Stored id r.backing n)
    (hs : r.stage who = .holding n) (hother : r.stage (!who) = .waiting)
    (hnow : now.inRange = true)
    (hdone : ∀ other, (run id patches (turn id patches r who now) schedule).stage other =
      .answered (.ok ())) :
    ∃ third rest n', schedule.map Prod.fst = third :: rest ∧
      Stored id (run id patches (turn id patches r who now) schedule).backing n' ∧
      n'.declared = ((patches (!who)).apply ((patches who).apply n)).declared := by
  obtain ⟨b', n₁, hturn, hstored, hdeclared⟩ :=
    turn_done h hs h (hpatches who) hnow (hdone who)
  have hlast := hdone (!who)
  rw [hturn] at hlast ⊢
  have hwaiting := (stage_advance_not r b' who (.answered (.ok ()))).trans hother
  have hanswered : (r.advance b' who (.answered (.ok ()))).stage (!!who) =
      .answered (.ok ()) := by
    rw [Bool.not_not, stage_advance]
  obtain ⟨n', hstored', hdeclared'⟩ :=
    run_waiting hpatches hclock hstored hwaiting hanswered hlast
  cases schedule with
  | nil =>
    rw [run, hwaiting] at hlast
    cases hlast
  | cons t rest =>
    have hboth := (patches !who).declared_apply_congr hdeclared
    exact ⟨t.1, _, n', rfl, hstored', hdeclared'.trans hboth⟩

end Runs

/-- Two patches of a node that give different fields and are both answered that they are done,
whatever the order of their steps. If the first one to begin is answered before the other begins,
the record has the values of both. Otherwise both found the same record, and the one that replaces
it last leaves the fields as if the other had never been made. -/
theorem patches_interleaved {b : Backing} {n : Node} {requests : Bool → Http.Request}
    (hb : b.Works) (hwell : b.store.data.WellFormed) (hn : nodes.Finds b.store.data id n)
    (hread : ∀ who, Command.ofRequest (requests who) = .ok (.patchNode id (patches who)))
    (hdisjoint : (patches false).Disjoint (patches true)) (hs : n.capabilities.Survives)
    (hpatches : ∀ who, (patches who).Survives) {schedule : List (Bool × Instant)}
    (hclock : ∀ t ∈ schedule, t.2.inRange = true)
    (hdone : ∀ who, (run id patches (start b) schedule).stage who = .answered (.ok ())) :
    ∃ first second third rest n', schedule.map Prod.fst = first :: second :: third :: rest ∧
      nodes.Finds (run id patches (start b) schedule).backing.store.data id n' ∧
      (second = first → (∀ who, (patches who).Holds n') ∧
        n'.declared = ((patches (!first)).apply ((patches first).apply n)).declared) ∧
      (second ≠ first → n'.declared = ((patches (!third)).apply n).declared) := by
  have hsound : ∀ who, (patches who).Sound := by
    intro who
    exact ⟨fun n => Command.fits_ofRequest (hread who) n, hpatches who⟩
  have hstored : Stored id b n := .of_wellFormed hb hwell hn hs
  -- Neither patch can be answered before it has had both its steps.
  cases schedule with
  | nil => cases hdone true
  | cons t rest =>
    obtain ⟨first, t₁⟩ := t
    obtain ⟨-, hrest⟩ := List.forall_mem_cons.1 hclock
    rw [run, turn_of_waiting rfl hstored.require] at hdone ⊢
    cases rest with
    | nil =>
      have hholding := hdone first
      rw [run, stage_advance] at hholding
      cases hholding
    | cons t rest =>
      obtain ⟨second, t₂⟩ := t
      obtain ⟨hnow, hlater⟩ := List.forall_mem_cons.1 hrest
      rw [run] at hdone ⊢
      obtain rfl | rfl := Bool.eq_or_eq_not second first
      · obtain ⟨third, rest', n', hschedule, hstored', hdeclared⟩ := run_apart hsound hlater
          hstored (stage_advance _ _ _ _) (stage_advance_not _ _ _ _) hnow hdone
        refine ⟨second, second, third, rest', n', ?_, hstored'.finds, ?_, ?_⟩
        · rw [List.map_cons, List.map_cons, hschedule]
        · intro _
          exact ⟨NodePatch.holds_both hdisjoint hdeclared, hdeclared⟩
        · intro hne
          exact absurd rfl hne
      · rw [turn_of_waiting (stage_advance_not _ _ _ _) hstored.require] at hdone ⊢
        have hboth : ∀ who, (((start b).advance b first (.holding n)).advance b (!first)
            (.holding n)).stage who = .holding n := by
          intro who
          obtain rfl | rfl := Bool.eq_or_eq_not who first
          · have hkept := stage_advance_not ((start b).advance b who (.holding n)) b (!who)
              (.holding n)
            rw [Bool.not_not] at hkept
            rw [hkept, stage_advance]
          · exact stage_advance _ _ _ _
        obtain ⟨third, rest', n', hschedule, hstored', hdeclared⟩ :=
          run_both hsound hlater hstored hboth hdone
        refine ⟨first, !first, third, rest', n', ?_, hstored'.finds, ?_, ?_⟩
        · rw [List.map_cons, List.map_cons, hschedule]
        · intro he
          exact absurd he (Bool.not_ne_self first)
        · intro _
          exact hdeclared

/-! ## A new name and a new address -/

/-- One patch gives a name, the other one an address. -/
def samplePatches : Bool → NodePatch
  | false => { name := some "a" }
  | true => { ip := some "10.0.0.2" }

/-- The requests for them. -/
def sampleRequests : Bool → Http.Request
  | false => ⟨.patch, "/api/nodes/n", some "application/json", utf8 "\x7b\"name\": \"a\"\x7d"⟩
  | true => ⟨.patch, "/api/nodes/n", some "application/json",
      utf8 "\x7b\"ip\": \"10.0.0.2\"\x7d"⟩

theorem ofRequest_sampleRequests (who : Bool) :
    Command.ofRequest (sampleRequests who) = .ok (.patchNode "n" (samplePatches who)) := by
  have hpath : (sampleRequests who).path = "/api/nodes/n" := by
    cases who <;> decide +kernel
  have hroute : Route.ofPath? "/api/nodes/n" = some (.node "n") := by decide +kernel
  have hid : Http.unescapeText? "n" = some "n" := by decide +kernel
  have hbody : readBody NodePatch.codec (sampleRequests who) = .ok (samplePatches who) := by
    cases who <;> rfl
  have hmethod : (sampleRequests who).method = .patch := by cases who <;> rfl
  rw [Command.ofRequest_of_path hpath hroute]
  dsimp only [Command.onRoute]
  rw [hmethod, readId, hid, hbody]
  rfl

theorem disjoint_samplePatches : (samplePatches false).Disjoint (samplePatches true) :=
  ⟨.inr rfl, .inl rfl, .inl rfl, .inl rfl, .inl rfl, .inl rfl, .inl rfl⟩

theorem survives_samplePatches (who : Bool) : (samplePatches who).Survives := by
  intro c hc
  cases who <;> cases hc

theorem sound_samplePatches (who : Bool) : (samplePatches who).Sound :=
  ⟨fun n => Command.fits_ofRequest (ofRequest_sampleRequests who) n, survives_samplePatches who⟩

/-- A store that works and has a node that was never stamped, and nothing else. -/
theorem exists_stored : ∃ b n, b.store.data.WellFormed ∧ Stored "n" b n ∧ n.updatedAt = none ∧
    n.name = "n" := by
  let n : Node := { Operation.bareNode with id := "n" }
  have hfits : n.Fits := Operation.fits_bareNode
  have hwell := hfits.wellFormed_alone rfl (show "n" ≠ "" by decide)
  refine ⟨⟨.volatile ⟨(nodes.write "n" n).apply .empty, false⟩, {}⟩,
    nodes.laws.codec.settle n, hwell, ?_, rfl, rfl⟩
  refine ⟨⟨trivial, rfl⟩, by decide, ?_, rfl, ?_⟩
  · exact Registry.finds_write nodes.laws (Node.fits_iff.2 hfits) _ "n"
  · show (Capabilities.laws.settle {}).Survives
    have hnone : ({} : Capabilities).Survives := nofun
    rw [Capabilities.settle_eq hnone]
    exact hnone

/-- One patch after the other: the node gets both the name and the address. -/
theorem patches_interleaved_apart : ∃ b n', ∃ schedule : List (Bool × Instant),
    (∀ who, (run "n" samplePatches (start b) schedule).stage who = .answered (.ok ())) ∧
    nodes.Finds (run "n" samplePatches (start b) schedule).backing.store.data "n" n' ∧
    n'.name = "a" ∧ n'.ip = "10.0.0.2" := by
  obtain ⟨b, n, hwell, h, hupdated, -⟩ := exists_stored
  have hstamp : nextStamp ⟨1, 0⟩ n.updatedAt = .ok ⟨1, 0⟩ := by rw [hupdated]; rfl
  have hturn₁ : turn "n" samplePatches (start b) false ⟨0, 0⟩ =
      (start b).advance b false (.holding n) := turn_of_waiting rfl h.require _
  obtain ⟨b₁, n₁, hturn₂, h₁, -, hupdated₁⟩ := turn_stamped
    (r := (start b).advance b false (.holding n)) h (stage_advance _ _ _ _) h
    (sound_samplePatches false) (by decide) hstamp
  have hstamp₁ : nextStamp ⟨3, 0⟩ n₁.updatedAt = .ok ⟨3, 0⟩ := by rw [hupdated₁]; rfl
  have hturn₃ :
      turn "n" samplePatches ((start b).advance b₁ false (.answered (.ok ()))) true ⟨2, 0⟩ =
        ((start b).advance b₁ false (.answered (.ok ()))).advance b₁ true (.holding n₁) :=
    turn_of_waiting (stage_advance_not (start b) b₁ false _) h₁.require _
  obtain ⟨b₂, n₂, hturn₄, -⟩ := turn_stamped
    (r := ((start b).advance b₁ false (.answered (.ok ()))).advance b₁ true (.holding n₁)) h₁
    (stage_advance _ _ _ _) h₁ (sound_samplePatches true) (by decide) hstamp₁
  have hrun : run "n" samplePatches (start b)
      [(false, ⟨0, 0⟩), (false, ⟨1, 0⟩), (true, ⟨2, 0⟩), (true, ⟨3, 0⟩)] =
        ((start b).advance b₁ false (.answered (.ok ()))).advance b₂ true (.answered (.ok ())) := by
    rw [run, hturn₁, run, hturn₂, advance_advance, run, hturn₃, run, hturn₄, advance_advance, run]
  have hdone : ∀ who, (run "n" samplePatches (start b)
      [(false, ⟨0, 0⟩), (false, ⟨1, 0⟩), (true, ⟨2, 0⟩), (true, ⟨3, 0⟩)]).stage who =
        .answered (.ok ()) := by
    intro who
    rw [hrun]
    cases who with
    | true => exact stage_advance _ _ _ _
    | false => exact (stage_advance_not _ _ true _).trans (stage_advance _ _ _ _)
  obtain ⟨first, second, third, rest, n', hschedule, hfinds, hapart, -⟩ := patches_interleaved
    h.works hwell h.finds ofRequest_sampleRequests disjoint_samplePatches h.survives
    survives_samplePatches (by decide) hdone
  obtain ⟨rfl, hothers⟩ := List.cons.inj hschedule
  obtain ⟨rfl, -⟩ := List.cons.inj hothers
  obtain ⟨hholds, -⟩ := hapart rfl
  exact ⟨b, n', _, hdone, hfinds, (congrArg Node.name (hholds false)).symm,
    (congrArg Node.ip (hholds true)).symm⟩

/-- Both patches look the record up and then both replace it: both are answered that they are done,
and the name is lost. -/
theorem patches_interleaved_lost : ∃ b n n', ∃ schedule : List (Bool × Instant),
    b.Works ∧ b.store.data.WellFormed ∧ nodes.Finds b.store.data "n" n ∧
    (samplePatches false).Disjoint (samplePatches true) ∧
    (∀ who, Command.ofRequest (sampleRequests who) = .ok (.patchNode "n" (samplePatches who))) ∧
    (∀ who, (run "n" samplePatches (start b) schedule).stage who = .answered (.ok ())) ∧
    nodes.Finds (run "n" samplePatches (start b) schedule).backing.store.data "n" n' ∧
    ¬(samplePatches false).Holds n' := by
  obtain ⟨b, n, hwell, h, hupdated, hname⟩ := exists_stored
  have hturn₁ : turn "n" samplePatches (start b) false ⟨0, 0⟩ =
      (start b).advance b false (.holding n) := turn_of_waiting rfl h.require _
  have hturn₂ : turn "n" samplePatches ((start b).advance b false (.holding n)) true ⟨1, 0⟩ =
      ((start b).advance b false (.holding n)).advance b true (.holding n) :=
    turn_of_waiting (stage_advance_not (start b) b false _) h.require _
  have hheld : (((start b).advance b false (.holding n)).advance b true (.holding n)).stage false =
      .holding n := (stage_advance_not _ _ true _).trans (stage_advance _ _ _ _)
  have hstamp : nextStamp ⟨2, 0⟩ n.updatedAt = .ok ⟨2, 0⟩ := by rw [hupdated]; rfl
  obtain ⟨b₁, n₁, hturn₃, h₁, -, hupdated₁⟩ :=
    turn_stamped h hheld h (sound_samplePatches false) (by decide) hstamp
  have hstamp₁ : nextStamp ⟨3, 0⟩ n₁.updatedAt = .ok ⟨3, 0⟩ := by rw [hupdated₁]; rfl
  have hheld₁ : ((((start b).advance b false (.holding n)).advance b true
      (.holding n)).advance b₁ false (.answered (.ok ()))).stage true = .holding n :=
    (stage_advance_not _ _ false _).trans (stage_advance _ _ _ _)
  obtain ⟨b₂, n₂, hturn₄, h₂, hdeclared, -⟩ :=
    turn_stamped h₁ hheld₁ h (sound_samplePatches true) (by decide) hstamp₁
  have hrun : run "n" samplePatches (start b)
      [(false, ⟨0, 0⟩), (true, ⟨1, 0⟩), (false, ⟨2, 0⟩), (true, ⟨3, 0⟩)] =
        ((((start b).advance b false (.holding n)).advance b true (.holding n)).advance b₁ false
          (.answered (.ok ()))).advance b₂ true (.answered (.ok ())) := by
    rw [run, hturn₁, run, hturn₂, run, hturn₃, run, hturn₄, run]
  refine ⟨b, n, n₂, _, h.works, hwell, h.finds, disjoint_samplePatches, ofRequest_sampleRequests,
    ?_, by rw [hrun]; exact h₂.finds, ?_⟩
  · intro who
    rw [hrun]
    cases who with
    | true => exact stage_advance _ _ _ _
    | false => exact (stage_advance_not _ _ true _).trans (stage_advance _ _ _ _)
  · intro hholds
    have hgiven : "a" = n₂.name := congrArg Node.name hholds
    have hkept : n₂.name = n.name := congrArg NodeForm.name hdeclared
    rw [hkept, hname] at hgiven
    exact absurd hgiven (by decide)

end Race

end Api

end ControlPlane
