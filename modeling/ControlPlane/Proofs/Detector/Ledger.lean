import ControlPlane.Proofs.Detector.Pass
import ControlPlane.Proofs.Detector.Stamps
import ControlPlane.Proofs.Store.Run

/-!
# What a pass reports

A pass over any store, whatever fails there, is set against a ledger of its dealings: which node was
asked, what came of it, and which changes the store then made (`Detector.Dealing`). The ledger leads
from the scene before the pass to the one after it (`Detector.Deals`), and the report of the pass
agrees with it (`Detector.Accounts`). So no fault of the store ends a pass, and nothing is reported
that was not done (`Detector.pass_accounts`). On a durable store the changes in the ledger are those
that the log grows by (`Detector.pass_logged`).
-/

namespace ControlPlane

/-! ## Changes tried -/

/-- Whether a store becomes another one when changes are tried one after the other, of which those
listed are made and the others refused. -/
inductive Backing.Tries : Backing → List Change → Backing → Prop
  | done (b : Backing) : Tries b [] b
  | made {b b' b'' : Backing} {c : Change} {cs : List Change} :
      b.commit c = (none, b') → Tries b' cs b'' → Tries b (c :: cs) b''
  | refused {b b' b'' : Backing} {c : Change} {cs : List Change} {e : StoreError} :
      b.commit c = (some e, b') → Tries b' cs b'' → Tries b cs b''

namespace Backing.Tries

variable {b b' b'' : Backing} {cs cs' : List Change}

theorem trans (h : Tries b cs b') (h' : Tries b' cs' b'') : Tries b (cs ++ cs') b'' := by
  induction h with
  | done b => exact h'
  | made hc _ ih => exact .made hc (ih h')
  | refused hc _ ih => exact .refused hc (ih h')

/-- A decision that is carried out makes one change if it comes to a result, and none if not. -/
theorem of_perform {β : Type} {decision : Except RegistryError (Change × β)}
    {x : Except RegistryError β} (h : b.perform decision = (x, b')) :
    (∃ e, x = .error e ∧ b.Tries [] b') ∨
      ∃ c r, decision = .ok (c, r) ∧ x = .ok r ∧ b.Tries [c] b' := by
  unfold perform at h
  split at h
  · rename_i e
    obtain ⟨rfl, rfl⟩ := Prod.mk.inj h
    exact .inl ⟨e, rfl, .done b⟩
  · rename_i c r
    rcases hc : b.commit c with ⟨_ | e, b₁⟩
    · rw [hc] at h
      obtain ⟨rfl, rfl⟩ := Prod.mk.inj h
      exact .inr ⟨c, r, rfl, rfl, .made hc (.done b₁)⟩
    · rw [hc] at h
      obtain ⟨rfl, rfl⟩ := Prod.mk.inj h
      exact .inl ⟨.store e, rfl, .refused hc (.done b₁)⟩

/-- On a durable store the changes that are made are those that its log grows by. -/
theorem durable_run {folder : String} {d₀ : Disk} {log : List Change} {s : Durable}
    (h : Tries b cs b') (hb : b.store = .durable s) (hr : Durable.Run folder d₀ log s b.disk) :
    ∃ s', b'.store = .durable s' ∧ Durable.Run folder d₀ (log ++ cs) s' b'.disk := by
  induction h generalizing log s with
  | done b =>
    rw [List.append_nil]
    exact ⟨s, hb, hr⟩
  | @made b b₁ b₂ c cs hc _ ih =>
    obtain ⟨store, disk⟩ := b
    obtain rfl : store = .durable s := hb
    rcases hcommit : s.commit disk c with ⟨x, s₁, d₁⟩
    rw [Backing.commit, Store.commit, hcommit] at hc
    obtain ⟨rfl, rfl⟩ := Prod.mk.inj hc
    rw [← List.singleton_append, ← List.append_assoc]
    exact ih rfl (.made hr hcommit)
  | @refused b b₁ b₂ c cs e hc _ ih =>
    obtain ⟨store, disk⟩ := b
    obtain rfl : store = .durable s := hb
    rcases hcommit : s.commit disk c with ⟨x, s₁, d₁⟩
    rw [Backing.commit, Store.commit, hcommit] at hc
    obtain ⟨rfl, rfl⟩ := Prod.mk.inj hc
    exact ih rfl (.failed hr hcommit)

end Backing.Tries

namespace Detector

/-! ## Reports add up -/

namespace Report

/-- The report of two things one after the other. -/
instance : Add Report where
  add r s := ⟨r.probed + s.probed, r.succeeded + s.succeeded, r.markedUnknown + s.markedUnknown,
    r.markedOffline + s.markedOffline, r.replicasUpdated + s.replicasUpdated,
    r.replicasSkipped + s.replicasSkipped⟩

theorem add_eq (r s : Report) : r + s = ⟨r.probed + s.probed, r.succeeded + s.succeeded,
    r.markedUnknown + s.markedUnknown, r.markedOffline + s.markedOffline,
    r.replicasUpdated + s.replicasUpdated, r.replicasSkipped + s.replicasSkipped⟩ :=
  rfl

theorem add_assoc (r s t : Report) : r + s + t = r + (s + t) := by
  simp only [add_eq, Nat.add_assoc]

theorem count_eq_add (r : Report) (e : Event) : r.count e = r + count {} e := by
  cases e with
  | verdictStored node verdict => cases verdict <;> rfl
  | _ => rfl

theorem foldl_count (es : List Event) (r : Report) : es.foldl count r = r + ofEvents es := by
  induction es generalizing r with
  | nil => rfl
  | cons e es ih =>
    have hfirst : ofEvents (e :: es) = count {} e + ofEvents es := ih (count {} e)
    rw [List.foldl_cons, ih, count_eq_add, add_assoc, hfirst]

theorem ofEvents_append (es es' : List Event) :
    ofEvents (es ++ es') = ofEvents es + ofEvents es' := by
  rw [ofEvents, List.foldl_append, foldl_count]
  rfl

end Report

/-! ## The ledger -/

/-- An entry of the ledger: a node that was asked, what came of it, and the changes that the store
made while the node was dealt with. -/
structure Dealing where
  node : Node
  outcome : Except ProbeError HeartbeatResponse
  made : List Change

namespace Dealing

/-- Whether the node answered. -/
def answered (d : Dealing) : Bool :=
  match d.outcome with
  | .ok _ => true
  | .error _ => false

/-- Whether the node did not answer and its status was written. -/
def marked (d : Dealing) : Bool :=
  !d.answered && !d.made.isEmpty

/-- Whether nothing but the status of a node that did not answer was written. -/
def WritesStatus (d : Dealing) : Prop :=
  d.made = [] ∨ ∃ (n : Node) (status : NodeStatus) (stamp : Instant),
    (status = .unknown ∨ status = .offline) ∧
      d.made = [nodes.write d.node.id (n.unreachable status stamp)]

end Dealing

/-- Whether a ledger leads from a scene to another one by occasions of a kind: a node is asked, and
then changes are tried. -/
inductive DealsOn {σ : Type} (P : Occasion σ → Prop) (ask : Prober σ) :
    Scene σ → List Dealing → Scene σ → Prop
  | done (scene : Scene σ) : DealsOn P ask scene [] scene
  | next {scene scene' scene'' : Scene σ} {b : Backing} {d : Dealing} {ds : List Dealing} :
      P ⟨d.node, scene⟩ → ask d.node scene = (some d.outcome, scene') →
      scene'.backing.Tries d.made b → DealsOn P ask { scene' with backing := b } ds scene'' →
      DealsOn P ask scene (d :: ds) scene''

/-- Whether a ledger leads from a scene to another one. -/
def Deals {σ : Type} : Prober σ → Scene σ → List Dealing → Scene σ → Prop :=
  DealsOn fun _ => True

namespace DealsOn

variable {σ : Type} {P Q : Occasion σ → Prop} {ask : Prober σ} {scene scene' : Scene σ}
  {ds : List Dealing}

theorem mono (h : DealsOn P ask scene ds scene') (hPQ : ∀ x, P x → Q x) :
    DealsOn Q ask scene ds scene' := by
  induction h with
  | done scene => exact .done scene
  | next hx hask htries _ ih => exact .next (hPQ _ hx) hask htries ih

/-- On a durable store that asking leaves alone, the changes of a ledger are those that the log
grows by. -/
theorem durable_run {folder : String} {d₀ : Disk} {log : List Change} {s : Durable}
    (h : DealsOn P ask scene ds scene')
    (halone : ∀ x, P x → (ask x.node x.scene).2.backing = x.scene.backing)
    (hb : scene.backing.store = .durable s)
    (hr : Durable.Run folder d₀ log s scene.backing.disk) :
    ∃ s', scene'.backing.store = .durable s' ∧
      Durable.Run folder d₀ (log ++ ds.flatMap (·.made)) s' scene'.backing.disk := by
  induction h generalizing log s with
  | done scene =>
    rw [List.flatMap_nil, List.append_nil]
    exact ⟨s, hb, hr⟩
  | @next scene scene' scene'' b d ds hx hask htries _ ih =>
    have hsame : (ask d.node scene).2.backing = scene.backing := halone _ hx
    rw [hask] at hsame
    rw [← hsame] at hb hr
    obtain ⟨s', hb', hr'⟩ := htries.durable_run hb hr
    rw [List.flatMap_cons, ← List.append_assoc]
    exact ih hb' hr'

end DealsOn

/-- Whether a report agrees with a ledger. -/
structure Accounts (ds : List Dealing) (r : Report) : Prop where
  probed : r.probed = ds.length
  succeeded : r.succeeded = ds.countP (·.answered)
  replicas : r.replicasUpdated + r.replicasSkipped =
    ((ds.filter (·.answered)).map (·.node.assignedReplicas.length)).sum
  marked : r.markedUnknown + r.markedOffline = ds.countP (·.marked)
  /-- Every update and every mark that is reported was written. -/
  written : r.replicasUpdated + r.markedUnknown + r.markedOffline ≤
    (ds.map (·.made.length)).sum
  /-- Beyond these no more was written than one heartbeat for each answer. -/
  bounded : (ds.map (·.made.length)).sum ≤
    r.replicasUpdated + r.markedUnknown + r.markedOffline + r.succeeded

namespace Accounts

variable {ds ds' : List Dealing} {r r' : Report}

theorem nil : Accounts [] {} := by
  constructor <;> simp

theorem append (h : Accounts ds r) (h' : Accounts ds' r') : Accounts (ds ++ ds') (r + r') := by
  obtain ⟨h₁, h₂, h₃, h₄, h₅, h₆⟩ := h
  obtain ⟨h₁', h₂', h₃', h₄', h₅', h₆'⟩ := h'
  rw [Report.add_eq]
  constructor <;>
    simp only [List.length_append, List.countP_append, List.filter_append, List.map_append,
      List.sum_append] <;> omega

end Accounts

/-! ## An answer -/

section Dealing

variable (n : Node) (r : HeartbeatResponse) (now : Readings) (b : Backing)

/-- A replica is updated, which is one change, or skipped. -/
theorem reconcileOne_accounts (time : Instant) (node id : String) :
    ∃ cs updated skipped, b.Tries cs (reconcileOne node r time b id).backing ∧
      Report.ofEvents (reconcileOne node r time b id).events =
        { replicasUpdated := updated, replicasSkipped := skipped } ∧
      updated + skipped = 1 ∧ cs.length = updated := by
  unfold reconcileOne
  cases replicas.get b.store id with
  | error e => exact ⟨[], 0, 1, .done b, rfl, rfl, rfl⟩
  | ok o =>
    cases o with
    | none => exact ⟨[], 0, 1, .done b, rfl, rfl, rfl⟩
    | some replica =>
      dsimp only
      rcases hp : b.perform ((replicas.put id (replica.observed (r.observe id) time)).map
        fun c => (c, ())) with ⟨x, b'⟩
      rcases Backing.Tries.of_perform hp with ⟨e, rfl, ht⟩ | ⟨c, u, -, rfl, ht⟩
      · refine ⟨[], 0, 1, ht, ?_, rfl, rfl⟩
        cases r.observe id <;> rfl
      · refine ⟨[c], 1, 0, ht, ?_, rfl, rfl⟩
        cases r.observe id <;> rfl

/-- Every assigned replica is updated or skipped. -/
theorem reconcile_accounts (time : Instant) (node : String) (ids : List String) :
    ∃ cs updated skipped, b.Tries cs (reconcile node r time b ids).backing ∧
      Report.ofEvents (reconcile node r time b ids).events =
        { replicasUpdated := updated, replicasSkipped := skipped } ∧
      updated + skipped = ids.length ∧ cs.length = updated := by
  induction ids generalizing b with
  | nil => exact ⟨[], 0, 0, .done b, rfl, rfl, rfl⟩
  | cons id ids ih =>
    obtain ⟨cs, u, k, ht, hr, hsum, hlength⟩ :=
      reconcileOne_accounts r b time node id
    obtain ⟨cs', u', k', ht', hr', hsum', hlength'⟩ :=
      ih (reconcileOne node r time b id).backing
    rw [reconcile_cons, Progress.andThen_of_went (reconcileOne_went node r time b id)]
    refine ⟨cs ++ cs', u + u', k + k', ht.trans ht', ?_, ?_, ?_⟩
    · dsimp only
      rw [Report.ofEvents_append, hr, hr']
      rfl
    · rw [List.length_cons]
      omega
    · rw [List.length_append]
      omega

/-- Noting an answer is at most one change and is not reported. -/
theorem noteHeartbeat_accounts : ∃ cs, b.Tries cs (noteHeartbeat n now b).backing ∧
    Report.ofEvents (noteHeartbeat n now b).events = {} ∧ cs.length ≤ 1 := by
  unfold noteHeartbeat
  rcases hp : b.perform (Node.recordHeartbeat b.store now.stamping n.id now.ended) with ⟨x, b'⟩
  rcases Backing.Tries.of_perform hp with ⟨e, rfl, ht⟩ | ⟨c, status, -, rfl, ht⟩
  · cases e <;> exact ⟨[], ht, rfl, Nat.zero_le 1⟩
  · refine ⟨[c], ht, ?_, Nat.le_refl 1⟩
    dsimp only [Progress.went]
    split <;> rfl

theorem onAnswer_accounts : ∃ made, b.Tries made (onAnswer n r now b).backing ∧
    Accounts [⟨n, .ok r, made⟩] (Report.ofEvents (onAnswer n r now b).events) := by
  obtain ⟨cs, u, k, ht, hr, hsum, hlength⟩ :=
    reconcile_accounts r b now.ended n.id n.assignedReplicas
  obtain ⟨cs', ht', hr', hone⟩ :=
    noteHeartbeat_accounts n now (reconcile n.id r now.ended b n.assignedReplicas).backing
  have hfirst : Report.ofEvents (.answered n.id :: if r.success then [] else
      [.selfCheckFailed n.id]) = { probed := 1, succeeded := 1 } := by
    cases r.success <;> rfl
  rw [onAnswer_eq]
  refine ⟨cs ++ cs', ht.trans ht', ?_⟩
  dsimp only
  rw [Report.ofEvents_append, Report.ofEvents_append, hfirst, hr, hr']
  constructor <;>
    simp [Report.add_eq, Dealing.answered, Dealing.marked] <;> omega

/-! ## No answer -/

/-- Giving a node a status for its silence is at most one change, and what is reported of it was
written. -/
theorem onSilence_accounts (e : ProbeError) (grace : Nat) :
    ∃ made, b.Tries made (onSilence n e grace now b).backing ∧
      Accounts [⟨n, .error e, made⟩] (Report.ofEvents (onSilence n e grace now b).events) ∧
      Dealing.WritesStatus ⟨n, .error e, made⟩ := by
  have hverdict := verdict_cases (lastSeen n) now.ended grace
  unfold onSilence
  generalize verdict (lastSeen n) now.ended grace = status at hverdict ⊢
  dsimp only
  rcases hp : b.perform ((Node.markUnreachable b.store now.stamping n.id status).map
    fun c => (c, ())) with ⟨x, b'⟩
  rcases Backing.Tries.of_perform hp with ⟨e', rfl, ht⟩ | ⟨c, u, hd, rfl, ht⟩
  · cases e' <;>
      exact ⟨[], ht, by constructor <;> rfl, .inl rfl⟩
  · refine ⟨[c], ht, ?_, .inr ?_⟩
    · rcases hverdict with rfl | rfl <;> constructor <;> rfl
    · rw [markUnreachable_eq_map] at hd
      obtain ⟨m, hm, hc⟩ := Except.map_eq_ok.1 hd
      obtain ⟨k, -, hk⟩ := Except.bind_eq_ok.1 hm
      obtain ⟨stamp, -, rfl⟩ := Except.map_eq_ok.1 hk
      exact ⟨k, status, stamp, hverdict, by rw [← (Prod.mk.inj hc).1]; rfl⟩

/-- Dealing with a node is reported as it was. -/
theorem onOutcome_accounts (grace : Nat) (outcome : Except ProbeError HeartbeatResponse) :
    ∃ made, b.Tries made (onOutcome grace n outcome now b).backing ∧
      Accounts [⟨n, outcome, made⟩] (Report.ofEvents (onOutcome grace n outcome now b).events) ∧
      ∀ e, outcome = .error e → Dealing.WritesStatus ⟨n, outcome, made⟩ := by
  cases outcome with
  | ok r =>
    obtain ⟨made, ht, haccounts⟩ := onAnswer_accounts n r now b
    exact ⟨made, ht, haccounts, nofun⟩
  | error e =>
    obtain ⟨made, ht, haccounts, hstatus⟩ := onSilence_accounts n now b e grace
    exact ⟨made, ht, haccounts, fun _ _ => hstatus⟩

end Dealing

/-! ## Whole passes -/

section Passes

variable {σ : Type} {ask : Prober σ} {scene scene' : Scene σ} {ids : List String} {ns : List Node}

/-- Whether asking came to something and left the map of the store alone, whatever else became of
the store, and the clock leaves room for the stamps of given ids but the first. -/
structure Quiet (ids : List String) (scene : Scene σ)
    (result : Option (Except ProbeError HeartbeatResponse) × Scene σ) : Prop where
  answered : ∃ outcome, result.1 = some outcome
  plain : result.2.backing.store.Plain
  data : result.2.backing.store.data = scene.backing.store.data
  genuine : result.2.readings.Both Instant.Genuine
  lasts : ∀ id, result.2.readings.stamping.Lasts (ids.count id - 1)

theorem Quiet.of_cons {id : String}
    {result : Option (Except ProbeError HeartbeatResponse) × Scene σ}
    (h : Quiet (id :: ids) scene result) : Quiet ids scene result :=
  { h with
    lasts := fun id' => (h.lasts id').mono (Nat.sub_le_sub_right List.count_le_count_cons 1) }

/-- Whether asking is quiet on an occasion. -/
def Occasion.Undisturbed (ids : List String) (ask : Prober σ) (x : Occasion σ) : Prop :=
  x.scene.backing.store.Plain → Quiet ids x.scene (ask x.node x.scene)

/-- Whether asking is quiet on all occasions of a pass. -/
def Undisturbed (ids : List String) (ask : Prober σ) (grace : Nat) (scene : Scene σ) : Prop :=
  ∀ x ∈ passOccasions ask grace scene, x.Undisturbed ids ask

/-- Whatever fails in the store, every node is asked, in order, and the report agrees with what was
done. -/
theorem visit_accounts {grace : Nat} (hs : scene.backing.store.Plain)
    (h : StampsLast (ns.map Node.id) scene.backing.store.data)
    (hquiet : ∀ x ∈ occasions ask grace ns scene, x.Undisturbed (ns.map Node.id) ask) :
    let o := visit ask grace ns scene
    o.ending = .finished ∧ o.asked = ns.map Node.id ∧
      ∃ ds : List Dealing, ds.map (·.node) = ns ∧
        DealsOn (· ∈ occasions ask grace ns scene) ask scene ds o.scene ∧
        Accounts ds (Report.ofEvents o.events) ∧
        ∀ d ∈ ds, ∀ e, d.outcome = .error e → d.WritesStatus := by
  induction ns generalizing scene with
  | nil => exact ⟨rfl, rfl, [], rfl, .done scene, .nil, by simp⟩
  | cons n ns ih =>
    obtain ⟨⟨outcome, hsome⟩, hplain, hdata, hgenuine, hlasts⟩ :=
      hquiet ⟨n, scene⟩ List.mem_cons_self hs
    dsimp only at hsome hplain hdata hgenuine hlasts
    rcases hask : ask n scene with ⟨x, scene'⟩
    rw [hask] at hsome hplain hdata hgenuine hlasts
    obtain rfl : x = some outcome := hsome
    have hself := hlasts n.id
    rw [List.map_cons, List.count_cons_self] at hself
    obtain ⟨hgo, hrest⟩ := StampsLast.onOutcome hplain (hdata ▸ h) hgenuine hself grace outcome
    have hu := onOutcome_undergoes grace n outcome scene'.readings scene'.backing
    obtain ⟨made, htries, haccounts, hstatus⟩ :=
      onOutcome_accounts n scene'.readings scene'.backing grace outcome
    rw [occasions_cons hask hgo] at hquiet
    obtain ⟨hending, hasked, ds, hds, hdeals, haccounts', hstatus'⟩ :=
      ih (hu.plain hplain).1 hrest fun x hx hp =>
        (hquiet x (List.mem_cons_of_mem _ hx) hp).of_cons
    rw [visit_cons hask hgo, occasions_cons hask hgo]
    refine ⟨hending, congrArg (n.id :: ·) hasked, ⟨n, outcome, made⟩ :: ds,
      congrArg (n :: ·) hds, .next List.mem_cons_self hask htries
        (hdeals.mono fun _ => List.mem_cons_of_mem _), ?_, ?_⟩
    · dsimp only
      rw [Report.ofEvents_append]
      exact haccounts.append haccounts'
    · exact List.forall_mem_cons.2 ⟨hstatus, hstatus'⟩

/-- The clock shows the same on all occasions on which nodes answer as given. -/
theorem readings_of_mem_occasions {b : Backing} {now : Readings} {grace : Nat}
    {outcome : Node → Except ProbeError HeartbeatResponse} {x : Occasion Unit}
    (hx : x ∈ occasions (askEach outcome) grace ns ⟨b, now, ()⟩) : x.scene.readings = now := by
  induction ns generalizing b with
  | nil => cases hx
  | cons n ns ih =>
    rcases List.mem_cons.1 hx with rfl | hx
    · rfl
    · dsimp only [askEach] at hx
      split at hx
      · cases hx
      · exact ih hx

/-- Nodes that answer as given do not disturb a pass. -/
theorem undisturbed_askEach {b : Backing} {now : Readings}
    (outcome : Node → Except ProbeError HeartbeatResponse) (grace : Nat)
    (hnow : now.Both Instant.Genuine) (hids : ids.Nodup) :
    Undisturbed ids (askEach outcome) grace ⟨b, now, ()⟩ := by
  intro x hx hs
  have hreadings : x.scene.readings = now := by
    unfold passOccasions at hx
    split at hx
    · exact readings_of_mem_occasions hx
    · cases hx
  exact ⟨⟨outcome x.node, rfl⟩, hs, rfl, hreadings.symm ▸ hnow,
    hreadings.symm ▸ lasts_of_nodup hids⟩

/-- Only failing to list the nodes is an error of a pass, whatever the probe. -/
theorem pass_eq_error {grace : Nat} {e : RegistryError} : pass ask grace scene = .error e ↔
    nodesWithStatus scene.backing.store probedStatuses = .error e := by
  rw [pass]
  cases nodesWithStatus scene.backing.store probedStatuses with
  | error e' =>
    constructor <;>
      · rintro ⟨⟩
        rfl
  | ok ns => constructor <;> rintro ⟨⟩

end Passes

/-- A pass over any store, whatever fails there, is an error exactly if a record of a node cannot be
read, and then it is the same error whatever the probe: no node is asked. Otherwise every node that
is online or unknown is asked, and the report agrees with the ledger of what was done. The stamps
that are stored have to leave room for those of the pass. -/
theorem pass_accounts {σ : Type} {ask : Prober σ} {scene : Scene σ} (grace : Nat)
    (hs : scene.backing.store.Plain)
    (h : ∀ ns, nodesWithStatus scene.backing.store probedStatuses = .ok ns →
      StampsLast (ns.map Node.id) scene.backing.store.data ∧
      Undisturbed (ns.map Node.id) ask grace scene) :
    ((∃ e, pass ask grace scene = .error e) ↔
      ∃ key bs f, KeyMap.beginsWith nodes.keyStart key = true ∧
        scene.backing.store.get? key = some bs ∧ nodes.codec.ofBytes bs = .error f) ∧
    (∀ e, pass ask grace scene = .error e →
      ∀ (τ : Type) (ask' : Prober τ) (grace' : Nat) (readings : Readings) (probe : τ),
        pass ask' grace' ⟨scene.backing, readings, probe⟩ = .error e) ∧
    ∀ o, pass ask grace scene = .ok o → o.ending = .finished ∧
      ∃ (ns : List Node) (ds : List Dealing),
        nodesWithStatus scene.backing.store probedStatuses = .ok ns ∧
        o.asked = ns.map Node.id ∧ ds.map (·.node) = ns ∧ Deals ask scene ds o.scene ∧
        Accounts ds (Report.ofEvents o.events) ∧
        ∀ d ∈ ds, ∀ e, d.outcome = .error e → d.WritesStatus := by
  refine ⟨?_, ?_, ?_⟩
  · rw [← Registry.list_error_iff hs]
    simp only [pass_eq_error, nodesWithStatus]
    cases nodes.list scene.backing.store <;> simp [bind, Except.bind, pure, Except.pure]
  · intro e he τ ask' grace' readings probe
    have hlist := pass_eq_error.1 he
    exact pass_eq_error.2 hlist
  · intro o ho
    obtain ⟨ns, hns, rfl⟩ := visit_of_pass ho
    obtain ⟨hstamps, hquiet⟩ := h ns hns
    rw [Undisturbed, passOccasions_of_probed ask grace hns] at hquiet
    obtain ⟨hending, hasked, ds, hds, hdeals, haccounts, hstatus⟩ :=
      visit_accounts hs hstamps hquiet
    exact ⟨hending, ns, ds, hns, hasked, hds, hdeals.mono fun _ _ => trivial, haccounts, hstatus⟩

/-- A pass over a closed store asks its node all the same, and reports the answer. -/
theorem pass_accounts_closed : ∃ o,
    pass (askEach fun _ => .ok ⟨"n", true, []⟩) 0 ⟨solo.close.2, soloReadings, ()⟩ = .ok o ∧
    o.ending = .finished ∧ o.asked = ["n"] ∧ (Report.ofEvents o.events).probed = 1 ∧
    (Report.ofEvents o.events).succeeded = 1 ∧
    (Report.ofEvents o.events).replicasUpdated +
      (Report.ofEvents o.events).replicasSkipped = 1 := by
  have hs : solo.close.2.store.Plain := trivial
  have hprobed : nodesWithStatus solo.close.2.store probedStatuses = .ok [soloNode] :=
    probed_solo hs rfl
  have hids : ([soloNode].map Node.id).Nodup := by decide
  let ask : Prober Unit := askEach fun _ => .ok ⟨"n", true, []⟩
  let scene : Scene Unit := ⟨solo.close.2, soloReadings, ()⟩
  have hready : ∀ ns, nodesWithStatus scene.backing.store probedStatuses = .ok ns →
      StampsLast (ns.map Node.id) scene.backing.store.data ∧
      Undisturbed (ns.map Node.id) ask 0 scene := by
    intro ns hns
    obtain rfl := Except.ok.inj (hprobed.symm.trans hns)
    exact ⟨stampsLast_of_nodup solo_keeps_nodes hids,
      undisturbed_askEach _ 0 soloReadings_genuine hids⟩
  obtain ⟨-, -, hall⟩ := pass_accounts 0 hs hready
  obtain ⟨hending, ns, ds, hns, hasked, hds, hdeals, haccounts, -⟩ :=
    hall _ (pass_of_probed 0 hprobed)
  obtain rfl := Except.ok.inj (hprobed.symm.trans hns)
  obtain ⟨d, rfl, hnode⟩ := List.map_eq_singleton_iff.1 hds
  have hanswered : d.outcome = .ok ⟨"n", true, []⟩ := by
    cases hdeals with
    | next _ hask _ _ => exact (Option.some.inj (Prod.mk.inj hask).1).symm
  refine ⟨_, pass_of_probed 0 hprobed, hending, hasked, haccounts.probed, ?_, ?_⟩
  · rw [haccounts.succeeded]
    simp [Dealing.answered, hanswered]
  · rw [haccounts.replicas]
    simp [Dealing.answered, hanswered, hnode, soloNode]

/-- Whatever fails on the disk, the log of a durable store grows by the changes in the ledger of a
pass whose asking leaves the store alone. -/
theorem pass_logged {σ : Type} {ask : Prober σ} {scene : Scene σ} {grace : Nat} {folder : String}
    {d₀ : Disk} {log : List Change} {s : Durable} (hb : scene.backing.store = .durable s)
    (hr : Durable.Run folder d₀ log s scene.backing.disk)
    (h : ∀ ns, nodesWithStatus scene.backing.store probedStatuses = .ok ns →
      StampsLast (ns.map Node.id) scene.backing.store.data ∧
      Undisturbed (ns.map Node.id) ask grace scene)
    (halone : ∀ x ∈ passOccasions ask grace scene,
      (ask x.node x.scene).2.backing = x.scene.backing) {o : Outcome σ}
    (ho : pass ask grace scene = .ok o) :
    ∃ ds s', Deals ask scene ds o.scene ∧ Accounts ds (Report.ofEvents o.events) ∧
      o.scene.backing.store = .durable s' ∧
      Durable.Run folder d₀ (log ++ ds.flatMap (·.made)) s' o.scene.backing.disk := by
  have hs : scene.backing.store.Plain := by
    rw [hb]
    trivial
  obtain ⟨ns, hns, rfl⟩ := visit_of_pass ho
  obtain ⟨hstamps, hquiet⟩ := h ns hns
  rw [Undisturbed, passOccasions_of_probed ask grace hns] at hquiet
  rw [passOccasions_of_probed ask grace hns] at halone
  obtain ⟨-, -, ds, -, hdeals, haccounts, -⟩ := visit_accounts hs hstamps hquiet
  obtain ⟨s', hb', hr'⟩ := hdeals.durable_run halone hb hr
  exact ⟨ds, s', hdeals.mono fun _ _ => trivial, haccounts, hb', hr'⟩

end Detector

end ControlPlane
