import ControlPlane.Proofs.Api.WellFormed
import ControlPlane.Proofs.Detector.Occasions
import ControlPlane.Proofs.Registry.Registration

/-!
# What happens while a node is asked

The detector deals with a node as it was listed at the start of a pass, in a store that requests may
have changed since. It writes no record but those that are there, and starts from what they are by
then: what was taken away stays away, and of the node nothing changes but what the detector notes
(`Detector.onOutcome_meanwhile`).
-/

namespace ControlPlane

/-! ## Rewriting what is there -/

/-- Whether a map has the keys of another one, with other values at most for those described. -/
def KeyMap.Rewrites (P : String → Prop) (m m' : KeyMap) : Prop :=
  ∀ key, m'.get? key = m.get? key ∨ P key ∧ (m.get? key).isSome ∧ (m'.get? key).isSome

namespace KeyMap.Rewrites

variable {P Q : String → Prop} {m m' m'' : KeyMap} {key : String}

theorem refl (P : String → Prop) (m : KeyMap) : Rewrites P m m :=
  fun _ => .inl rfl

theorem mono (h : Rewrites P m m') (hPQ : ∀ key, P key → Q key) : Rewrites Q m m' := by
  intro key
  exact (h key).imp_right fun hk => ⟨hPQ key hk.1, hk.2⟩

theorem isSome_eq (h : Rewrites P m m') (key : String) :
    (m'.get? key).isSome = (m.get? key).isSome := by
  rcases h key with he | ⟨-, hm, hm'⟩
  · rw [he]
  · rw [hm, hm']

theorem trans (h : Rewrites P m m') (h' : Rewrites P m' m'') : Rewrites P m m'' := by
  intro key
  rcases h' key with he' | ⟨hk, hm', hm''⟩
  · rw [he']
    rcases h key with he | hk
    · exact .inl he
    · exact .inr hk
  · exact .inr ⟨hk, by rw [← h.isSome_eq key, hm'], hm''⟩

theorem get?_eq (h : Rewrites P m m') (hk : ¬P key) : m'.get? key = m.get? key :=
  (h key).resolve_right fun hr => hk hr.1

/-- No key is new. -/
theorem keys_subset (h : Rewrites P m m') : m'.keys ⊆ m.keys := by
  intro key hkey
  obtain ⟨⟨k, value⟩, he, rfl⟩ := List.mem_map.1 hkey
  have hsome := h.isSome_eq k
  rw [KeyMap.get?_eq_some_iff.2 he] at hsome
  obtain ⟨old, hold⟩ := Option.isSome_iff_exists.1 hsome.symm
  exact List.mem_map.2 ⟨(k, old), KeyMap.get?_eq_some_iff.1 hold, rfl⟩

end KeyMap.Rewrites

/-- A record is written in the place of one that was found. -/
theorem Registry.Finds.rewrites_write {α : Type} {r : Registry α} {m : KeyMap} {id : String} {a : α}
    (h : r.Finds m id a) (b : α) : m.Rewrites (· = r.key id) ((r.write id b).apply m) := by
  obtain ⟨bs, hbs, -⟩ := h
  intro key
  have hget : ((r.write id b).apply m).get? key =
      if key = r.key id then some (r.codec.toBytes b) else m.get? key := m.get?_insert _ _ key
  rw [hget]
  by_cases hk : key = r.key id
  · subst hk
    exact .inr ⟨rfl, by rw [hbs]; rfl, by rw [if_pos rfl]; rfl⟩
  · exact .inl (if_neg hk)

/-! ## Noting something in the record of a node -/

/-- What is noted in the record of a node when that is written with a stamp. -/
abbrev Note := Node → Instant → Node

/-- That the node answered. -/
def Note.answer (now : Instant) : Note :=
  fun n stamp => n.heard now stamp

/-- What silence made of the status of the node. -/
def Note.silence (status : NodeStatus) : Note :=
  fun n stamp => n.unreachable status stamp

/-- Whether a note leaves a node as it is but for its status, its stamp and the times of its signs
of life, and with times of the calendar. -/
structure Note.Lawful (note : Note) : Prop where
  others : ∀ n stamp, note n stamp = { n with
    status := (note n stamp).status
    updatedAt := (note n stamp).updatedAt
    lastHeartbeat := (note n stamp).lastHeartbeat
    lastActivity := (note n stamp).lastActivity }
  fits : ∀ n stamp, n.Fits → stamp.inRange = true → (note n stamp).Fits

theorem Note.lawful_answer {now : Instant} (hnow : now.inRange = true) :
    (answer now).Lawful where
  others _ _ := rfl
  fits _ _ hf hs := hf.heard hnow hs

theorem Note.lawful_silence (status : NodeStatus) : (silence status).Lawful where
  others _ _ := rfl
  fits _ _ hf hs := hf.unreachable hs status

/-- Whether the record of a node, if anything is written at all, is the one that was found with a
note. -/
def Noted (id : String) (note : Note) (m m' : KeyMap) : Prop :=
  m' = m ∨ ∃ n stamp, nodes.Finds m id n ∧ stamp.inRange = true ∧
    m' = (nodes.write id (note n stamp)).apply m

namespace Noted

variable {id : String} {note : Note} {m m' : KeyMap} {n : Node}

theorem rewrites (h : Noted id note m m') : m.Rewrites (· = nodes.key id) m' := by
  rcases h with rfl | ⟨n, stamp, hn, -, rfl⟩
  · exact .refl _ _
  · exact hn.rewrites_write _

/-- The record of the node afterwards. -/
theorem finds (h : Noted id note m m') (hl : note.Lawful) (hn : nodes.Finds m id n) :
    nodes.Finds m' id n ∨
      ∃ stamp, nodes.Finds m' id (nodes.laws.codec.settle (note n stamp)) := by
  rcases h with rfl | ⟨n', stamp, hn', hs, rfl⟩
  · exact .inl hn
  · obtain rfl := hn.unique hn'
    obtain ⟨bs, -, hbs⟩ := hn
    have hfits := Node.fits_iff.1 (nodes.laws.fits_of_ofBytes hbs)
    exact .inr ⟨stamp, Registry.finds_write nodes.laws (Node.fits_iff.2 (hl.fits n stamp hfits hs))
      m id⟩

/-- A decision to note something is carried out or not. -/
theorem of_perform {β : Type} (note : Note) {b b' : Backing} (hs : b.store.Plain)
    {decision : Except RegistryError (Change × β)} {x : Except RegistryError β}
    (hd : decision.Yields fun r => ∃ n stamp, nodes.Finds b.store.data id n ∧
      stamp.inRange = true ∧ r.1 = nodes.write id (note n stamp))
    (hp : b.perform decision = (x, b')) :
    b'.store.Plain ∧ Noted id note b.store.data b'.store.data := by
  obtain ⟨hs', ⟨e, -, hdata⟩ | ⟨c, r, hdecision, -, hdata⟩⟩ := Backing.perform_spec hs hp
  · exact ⟨hs', .inl hdata⟩
  · obtain ⟨n, stamp, hn, hstamp, hc⟩ := hd _ hdecision
    obtain rfl : c = _ := hc
    exact ⟨hs', .inr ⟨n, stamp, hn, hstamp, hdata⟩⟩

end Noted

/-- A node that was found keeps all but the four noted fields when it is written and read with a
note, as long as its floating-point numbers survive. -/
theorem Note.Lawful.settle_eq {note : Note} (h : note.Lawful) {m : KeyMap} {id : String} {n : Node}
    (hn : nodes.Finds m id n) (hc : n.capabilities.Survives) (stamp : Instant) :
    let n' := nodes.laws.codec.settle (note n stamp)
    n' = { n with
      status := n'.status
      updatedAt := n'.updatedAt
      lastHeartbeat := n'.lastHeartbeat
      lastActivity := n'.lastActivity } := by
  have hregistered : n.registeredAt.map Instant.settled = n.registeredAt := by
    obtain ⟨bs, -, hbs⟩ := hn
    obtain ⟨-, -, -, -, -, -, -, -, -, -, hgenuine, -⟩ := nodes.genuine.fits_of_ofBytes hbs
    cases ht : n.registeredAt with
    | none => rfl
    | some t => exact congrArg some (hgenuine t ht).settled_eq
  have hassigned : n.assignedReplicas.map (fun s => s) = n.assignedReplicas := List.map_id' _
  have hothers := h.others n stamp
  generalize note n stamp = k at hothers ⊢
  generalize k.status = status, k.updatedAt = updated, k.lastHeartbeat = heartbeat,
    k.lastActivity = activity at hothers
  subst hothers
  show { n with
    capabilities := Capabilities.laws.settle n.capabilities
    status := status
    assignedReplicas := n.assignedReplicas.map fun s => s
    registeredAt := n.registeredAt.map Instant.settled
    updatedAt := _
    lastHeartbeat := _
    lastActivity := _ } = _
  rw [Capabilities.settle_eq hc, hassigned, hregistered]
  rfl

namespace Detector

variable {b b' : Backing} {now : Readings}

/-! ## An answer -/

theorem backing_andThen {Q : Backing → Prop} {p : Progress} {next : Backing → Progress}
    (hp : Q p.backing) (hn : Q p.backing → Q (next p.backing).backing) :
    Q (p.andThen next).backing := by
  unfold Progress.andThen
  split
  · exact hp
  · exact hn hp

/-- The record of an assigned replica is rewritten if it is there. -/
theorem reconcileOne_rewrites (hs : b.store.Plain) (node : String) (r : HeartbeatResponse)
    (now : Instant) (id : String) :
    (reconcileOne node r now b id).backing.store.Plain ∧
      b.store.data.Rewrites (· = replicas.key id)
        (reconcileOne node r now b id).backing.store.data := by
  unfold reconcileOne
  cases hg : replicas.get b.store id with
  | error e => exact ⟨hs, .refl _ _⟩
  | ok o =>
    cases o with
    | none => exact ⟨hs, .refl _ _⟩
    | some replica =>
      dsimp only
      obtain ⟨-, ⟨-, hnone⟩ | ⟨a, -, ha⟩⟩ := (Registry.get_eq_ok hs).1 hg
      · cases hnone
      rcases hp : b.perform ((replicas.put id (replica.observed (r.observe id) now)).map
        fun c => (c, ())) with ⟨x, b'⟩
      have written : b'.store.Plain ∧
          b.store.data.Rewrites (· = replicas.key id) b'.store.data := by
        obtain ⟨hs', ⟨e, -, hdata⟩ | ⟨c, u, hdecision, -, hdata⟩⟩ := Backing.perform_spec hs hp
        · rw [hdata]
          exact ⟨hs', .refl _ _⟩
        · obtain ⟨c', hput, he⟩ := Except.map_eq_ok.1 hdecision
          obtain ⟨-, rfl⟩ := (replicas.put_spec id _).yields _ hput
          obtain ⟨rfl, -⟩ := Prod.mk.inj he
          rw [hdata]
          exact ⟨hs', ha.rewrites_write _⟩
      cases x with
      | ok u => exact written
      | error e => exact written

/-- The keys of the replicas assigned to a node. -/
def assignedKey (n : Node) (key : String) : Prop :=
  ∃ id ∈ n.assignedReplicas, key = replicas.key id

theorem reconcile_rewrites (hs : b.store.Plain) (n : Node) (r : HeartbeatResponse)
    (now : Instant) :
    (reconcile n.id r now b n.assignedReplicas).backing.store.Plain ∧
      b.store.data.Rewrites (assignedKey n)
        (reconcile n.id r now b n.assignedReplicas).backing.store.data := by
  unfold reconcile
  have hstart : (Progress.went b []).backing.store.Plain ∧
      b.store.data.Rewrites (assignedKey n) (Progress.went b []).backing.store.data :=
    ⟨hs, .refl _ _⟩
  have hids : ∀ id ∈ n.assignedReplicas, assignedKey n (replicas.key id) :=
    fun id hid => ⟨id, hid, rfl⟩
  revert hids hstart
  -- The keys stay those of the whole list while the replicas are gone through.
  generalize n.assignedReplicas = ids, Progress.went b [] = p
  intro hp hids
  induction ids generalizing p with
  | nil => exact hp
  | cons id ids ih =>
    obtain ⟨hid, hids⟩ := List.forall_mem_cons.1 hids
    refine ih _ (backing_andThen (Q := fun x => x.store.Plain ∧
      b.store.data.Rewrites (assignedKey n) x.store.data) hp ?_) hids
    rintro ⟨hplain, hrewrites⟩
    obtain ⟨hplain', hone⟩ := reconcileOne_rewrites hplain n.id r now id
    exact ⟨hplain', hrewrites.trans (hone.mono fun _ hk => hk ▸ hid)⟩

/-- What dealing with a node does to a store: first the records of its replicas are rewritten, then
something is noted in its own. -/
def Handled (n : Node) (note : Note) (b b' : Backing) : Prop :=
  b'.store.Plain ∧ ∃ m, b.store.data.Rewrites (assignedKey n) m ∧
    Noted n.id note m b'.store.data

theorem noteHeartbeat_noted (hs : b.store.Plain) (n : Node)
    (hnow : now.stamping.inRange = true) :
    (noteHeartbeat n now b).backing.store.Plain ∧
      Noted n.id (.answer now.ended) b.store.data
        (noteHeartbeat n now b).backing.store.data := by
  have hd : (Node.recordHeartbeat b.store now.stamping n.id now.ended).Yields fun r => ∃ m stamp,
      nodes.Finds b.store.data n.id m ∧ stamp.inRange = true ∧
        r.1 = nodes.write n.id (m.heard now.ended stamp) := by
    refine .bind (P := nodes.Finds b.store.data n.id)
      (fun m hm => ((Registry.require_eq_ok hs).1 hm).2) fun m hm => ?_
    exact (nextStamp_yields hnow).bind fun stamp hstamp => .pure ⟨m, stamp, hm, hstamp, rfl⟩
  unfold noteHeartbeat
  rcases hp : b.perform (Node.recordHeartbeat b.store now.stamping n.id now.ended) with ⟨x, b'⟩
  have hnoted := Noted.of_perform (.answer now.ended) hs hd hp
  -- Whatever the store says, its map is the one looked at.
  split
  all_goals
    rename_i hx
    obtain ⟨-, rfl⟩ := Prod.mk.inj hx
    exact hnoted

theorem onAnswer_handled (hs : b.store.Plain) (n : Node) (r : HeartbeatResponse)
    (hnow : now.stamping.inRange = true) :
    Handled n (.answer now.ended) b (onAnswer n r now b).backing := by
  unfold onAnswer Handled
  refine backing_andThen (Q := Handled n (.answer now.ended) b)
    ⟨hs, _, .refl _ _, .inl rfl⟩ fun _ => ?_
  show Handled n (.answer now.ended) b
    ((reconcile n.id r now.ended b n.assignedReplicas).andThen (noteHeartbeat n now)).backing
  obtain ⟨hplain, hrewrites⟩ := reconcile_rewrites hs n r now.ended
  refine backing_andThen (Q := Handled n (.answer now.ended) b)
    ⟨hplain, _, hrewrites, .inl rfl⟩ fun _ => ?_
  obtain ⟨hplain', hnoted⟩ := noteHeartbeat_noted hplain n hnow
  exact ⟨hplain', _, hrewrites, hnoted⟩

/-! ## No answer -/

theorem onSilence_handled (hs : b.store.Plain) (n : Node) (e : ProbeError) (grace : Nat)
    (hnow : now.stamping.inRange = true) :
    Handled n (.silence (verdict (lastSeen n) now.ended grace)) b
      (onSilence n e grace now b).backing := by
  unfold onSilence
  generalize verdict (lastSeen n) now.ended grace = status
  have hd : ((Node.markUnreachable b.store now.stamping n.id status).map
      fun c => (c, ())).Yields fun r => ∃ m stamp, nodes.Finds b.store.data n.id m ∧
        stamp.inRange = true ∧ r.1 = nodes.write n.id (m.unreachable status stamp) := by
    intro r hr
    obtain ⟨c, hc, rfl⟩ := Except.map_eq_ok.1 hr
    obtain ⟨m, hm, hc⟩ := Except.bind_eq_ok.1 hc
    obtain ⟨stamp, hstamp, hc⟩ := Except.bind_eq_ok.1 hc
    exact ⟨m, stamp, ((Registry.require_eq_ok hs).1 hm).2, nextStamp_yields hnow stamp hstamp,
      (Except.ok.inj hc).symm⟩
  dsimp only
  rcases hp : b.perform ((Node.markUnreachable b.store now.stamping n.id status).map
    fun c => (c, ())) with ⟨x, b'⟩
  obtain ⟨hplain, hnoted⟩ := Noted.of_perform (.silence status) hs hd hp
  have hhandled : Handled n (.silence status) b b' := ⟨hplain, _, .refl _ _, hnoted⟩
  -- Whatever the store says, its map is the one looked at.
  split
  all_goals
    rename_i hx
    obtain ⟨-, rfl⟩ := Prod.mk.inj hx
    exact hhandled

theorem onOutcome_handled (hs : b.store.Plain) (n : Node) (grace : Nat)
    (outcome : Except ProbeError HeartbeatResponse) (hnow : now.Both (·.inRange = true)) :
    ∃ note : Note, note.Lawful ∧ Handled n note b (onOutcome grace n outcome now b).backing ∧
      ∀ r, outcome = .ok r → note = .answer now.ended := by
  obtain ⟨hover, hstamping⟩ := hnow
  cases outcome with
  | ok r => exact ⟨_, Note.lawful_answer hover, onAnswer_handled hs n r hstamping, fun _ _ => rfl⟩
  | error e => exact ⟨_, Note.lawful_silence _, onSilence_handled hs n e grace hstamping, nofun⟩

/-! ## What a handled node leaves -/

/-- Of a node with an answer noted the status is another one only if it was unknown. -/
theorem status_answer (m : Node) (time stamp : Instant)
    (h : m.status = .error ∨ m.status = .offline) :
    (nodes.laws.codec.settle (Note.answer time m stamp)).status = m.status := by
  show (if m.status = .unknown then .online else m.status) = m.status
  refine if_neg ?_
  rcases h with h | h <;> rw [h] <;> decide

namespace Handled

variable {n m : Node} {note : Note}

theorem rewrites (h : Handled n note b b') :
    b.store.data.Rewrites (fun key => key = nodes.key n.id ∨ assignedKey n key)
      b'.store.data := by
  obtain ⟨-, m, hreplicas, hnoted⟩ := h
  exact (hreplicas.mono fun _ => .inr).trans (hnoted.rewrites.mono fun _ => .inl)

/-- The record of the node was left as it is, or it got the note. -/
theorem finds (h : Handled n note b b') (hl : note.Lawful)
    (hm : nodes.Finds b.store.data n.id m) : ∃ m', nodes.Finds b'.store.data n.id m' ∧
      (m' = m ∨ ∃ stamp, m' = nodes.laws.codec.settle (note m stamp)) := by
  obtain ⟨-, between, hreplicas, hnoted⟩ := h
  have hkey : ¬assignedKey n (nodes.key n.id) := by
    rintro ⟨id, -, he⟩
    exact Registry.nodes_apart_replicas n.id id he
  have hbetween : nodes.Finds between n.id m := by
    obtain ⟨bs, hbs, hd⟩ := hm
    exact ⟨bs, (hreplicas.get?_eq hkey).trans hbs, hd⟩
  rcases hnoted.finds hl hbetween with hsame | ⟨stamp, hwritten⟩
  · exact ⟨m, hsame, .inl rfl⟩
  · exact ⟨_, hwritten, .inr ⟨stamp, rfl⟩⟩

/-- A node without a record gets none. -/
theorem get_none (h : Handled n note b b') (hs : b.store.Plain)
    (hn : nodes.get b.store n.id = .ok none) : nodes.get b'.store n.id = .ok none := by
  obtain ⟨hid, ⟨hnone, -⟩ | ⟨m, hm, -⟩⟩ := (Registry.get_eq_ok hs).1 hn
  · refine (Registry.get_eq_ok h.1).2 ⟨hid, .inl ⟨?_, rfl⟩⟩
    have hsome := h.rewrites.isSome_eq (nodes.key n.id)
    rw [hnone] at hsome
    simpa using hsome
  · cases hm

/-- The record of a node stays but for what is noted in it. -/
theorem get_some (h : Handled n note b b') (hs : b.store.Plain) (hl : note.Lawful)
    (hn : nodes.get b.store n.id = .ok (some m)) :
    ∃ m', nodes.get b'.store n.id = .ok (some m') ∧
      (m.capabilities.Survives → m' = { m with
        status := m'.status
        updatedAt := m'.updatedAt
        lastHeartbeat := m'.lastHeartbeat
        lastActivity := m'.lastActivity }) ∧
      ∀ time, note = .answer time → m.status = .error ∨ m.status = .offline →
        m'.status = m.status := by
  obtain ⟨hid, ⟨-, hnone⟩ | ⟨m₁, hm₁, hm⟩⟩ := (Registry.get_eq_ok hs).1 hn
  · cases hnone
  obtain rfl := Option.some.inj hm₁
  obtain ⟨m', hm', hcases⟩ := h.finds hl hm
  refine ⟨m', (Registry.get_eq_ok h.1).2 ⟨hid, .inr ⟨m', rfl, hm'⟩⟩, ?_, ?_⟩
  · intro hsurvives
    rcases hcases with rfl | ⟨stamp, rfl⟩
    · rfl
    · exact hl.settle_eq hm hsurvives stamp
  · rintro time rfl hstatus
    rcases hcases with rfl | ⟨stamp, rfl⟩
    · rfl
    · exact status_answer m time stamp hstatus

/-- A key that is neither the node's nor one of its replicas' keeps its value. -/
theorem get?_eq (h : Handled n note b b') (hs : b.store.Plain) {key : String}
    (hk : key ≠ nodes.key n.id) (hr : ¬assignedKey n key) :
    b'.store.get? key = b.store.get? key := by
  rw [h.1.get?, hs.get?]
  exact h.rewrites.get?_eq fun hor => hor.elim hk hr

end Handled

/-- A node that is listed bears an id. -/
theorem id_ne_of_listed {s : Store} (h : s.data.WellFormed) {ns : List Node}
    (hns : nodesWithStatus s probedStatuses = .ok ns) {n : Node} (hn : n ∈ ns) : n.id ≠ "" := by
  have hkeeps : nodes.Keeps (fun n => n.id ≠ "") s := by
    intro e he hb
    obtain ⟨n, hd, hne, hk, -⟩ := h.toSound.keeps_nodes e he hb
    exact ⟨n, hd, hne, hk, hne⟩
  obtain ⟨all, hall, -, hids⟩ := Registry.list_spec hkeeps
  obtain ⟨all', hall', hns⟩ := Except.bind_eq_ok.1 hns
  obtain rfl : all = all' := Except.ok.inj (hall.symm.trans hall')
  obtain rfl := Except.ok.inj hns
  exact hids n (List.mem_of_mem_filter hn)

open Api (Service Settings)

variable {settings : Settings} {s s' : Service} {n : Node}

/-- A node is listed, requests come while it is asked, and then what came of it is dealt with. No
key is new, so nothing that was taken away comes back. The record of the node is the one that the
requests left but for what is noted in it, an answer does not undo the status error or offline, and
every other node, every model and every replica that was not assigned to the node when it was listed
is left alone. -/
theorem onOutcome_meanwhile (hw : s.backing.Works) (h : s.backing.store.data.WellFormed)
    {ns : List Node} (hns : nodesWithStatus s.backing.store probedStatuses = .ok ns) (hn : n ∈ ns)
    (hr : Service.Reaches settings s s') (hnow : now.Both (·.inRange = true)) (grace : Nat)
    (outcome : Except ProbeError HeartbeatResponse)
    (hb : (onOutcome grace n outcome now s'.backing).backing = b) :
    b.store.keys ⊆ s'.backing.store.keys ∧
    (∃ o o', nodes.get s'.backing.store n.id = .ok o ∧ nodes.get b.store n.id = .ok o' ∧
      (o = none → o' = none) ∧
      ∀ m, o = some m → ∃ m', o' = some m' ∧
        (m.capabilities.Survives → m' = { m with
          status := m'.status
          updatedAt := m'.updatedAt
          lastHeartbeat := m'.lastHeartbeat
          lastActivity := m'.lastActivity }) ∧
        ((∃ r, outcome = .ok r) → m.status = .error ∨ m.status = .offline →
          m'.status = m.status)) ∧
    (∀ id, id ≠ n.id → b.store.get? (nodes.key id) = s'.backing.store.get? (nodes.key id)) ∧
    (∀ id, b.store.get? (models.key id) = s'.backing.store.get? (models.key id)) ∧
    ∀ id, id ∉ n.assignedReplicas →
      b.store.get? (replicas.key id) = s'.backing.store.get? (replicas.key id) := by
  obtain ⟨hw', h'⟩ := hr.wellFormed hw h
  have hplain := hw'.plain
  have hid := id_ne_of_listed h hns hn
  obtain ⟨note, hl, hhandled, hanswer⟩ := onOutcome_handled hplain n grace outcome hnow
  rw [hb] at hhandled
  refine ⟨hhandled.rewrites.keys_subset, ?_, ?_, ?_, ?_⟩
  · obtain ⟨o, ho⟩ := h'.toSound.keeps_nodes.exists_get hplain hid
    cases o with
    | none =>
      refine ⟨none, none, ho, hhandled.get_none hplain ho, fun _ => rfl, ?_⟩
      intro m hm
      cases hm
    | some m =>
      obtain ⟨m', ho', hrecord, hstatus⟩ := hhandled.get_some hplain hl ho
      refine ⟨some m, some m', ho, ho', ?_, ?_⟩
      · intro hnone
        cases hnone
      · intro m₁ hm₁
        obtain rfl := Option.some.inj hm₁
        exact ⟨m', rfl, hrecord, fun ⟨r, hr⟩ => hstatus _ (hanswer r hr)⟩
  · intro id hne
    refine hhandled.get?_eq hplain (fun he => hne (Registry.key_inj he)) ?_
    rintro ⟨id', -, he⟩
    exact Registry.nodes_apart_replicas id id' he
  · intro id
    refine hhandled.get?_eq hplain (Registry.nodes_apart_models.symm id n.id) ?_
    rintro ⟨id', -, he⟩
    exact Registry.models_apart_replicas id id' he
  · intro id hassigned
    refine hhandled.get?_eq hplain (Registry.nodes_apart_replicas.symm id n.id) ?_
    rintro ⟨id', hid', he⟩
    obtain rfl := Registry.key_inj he
    exact hassigned hid'

/-- What takes a node away is understood. -/
theorem ofRequest_removeNode :
    Api.Command.ofRequest ⟨.delete, "/api/nodes/n", none, []⟩ = .ok (.removeNode "n") := by
  have hpath : Http.Request.path ⟨.delete, "/api/nodes/n", none, []⟩ = "/api/nodes/n" := by
    decide +kernel
  have hroute : Api.Route.ofPath? "/api/nodes/n" = some (.node "n") := by decide +kernel
  have hid : Http.unescapeText? "n" = some "n" := by decide +kernel
  rw [Api.Command.ofRequest_of_path hpath hroute]
  dsimp only [Api.Command.onRoute]
  rw [Api.readId, hid]
  rfl

/-- A store that works takes a node away on request. -/
theorem reaches_removeNode (settings : Settings) (hw : s.backing.Works) :
    ∃ b, Service.Reaches settings s ⟨b, s.issued⟩ ∧ b.Works ∧
      b.store.data = Change.apply s.backing.store.data (.delete (nodes.key "n")) := by
  obtain ⟨b, hc, hb, hdata⟩ := hw.commit (c := .delete (nodes.key "n")) (nodes.key_ne_empty "n")
  have hhandle : s.handle settings ⟨0, 0⟩ ⟨.delete, "/api/nodes/n", none, []⟩ =
      (.done Api.Decision.success, ⟨b, s.issued⟩) :=
    (Service.handle_of_read ofRequest_removeNode).trans (Service.obey_of_commit rfl hc rfl)
  have hr : Service.Reaches settings s _ := .answered "r" ⟨.delete, "/api/nodes/n", none, []⟩
    .start (show (⟨0, 0⟩ : Instant).inRange = true by decide)
  rw [Service.respond_of_handle hhandle (by decide)] at hr
  exact ⟨b, hr, hb, hdata⟩

/-- A node that is taken away while it is asked does not come back, whatever is heard of it. -/
theorem onOutcome_meanwhile_removed : ∃ (s s' : Service) (ns : List Node) (n : Node),
    nodesWithStatus s.backing.store probedStatuses = .ok ns ∧ n ∈ ns ∧ n.id = "n" ∧
    Service.Reaches ⟨.refreshHeartbeat, fun _ => "m"⟩ s s' ∧
    ∀ outcome : Except ProbeError HeartbeatResponse,
      nodes.get (onOutcome 0 n outcome ⟨⟨1, 0⟩, ⟨1, 500⟩⟩ s'.backing).backing.store "n" =
        .ok none := by
  let n : Node := { Operation.bareNode with id := "n" }
  have hfits : n.Fits := Operation.fits_bareNode
  have hshows : nodes.Shows ((nodes.write "n" n).apply .empty) _ :=
    (Registry.Shows.empty nodes).write nodes.laws (Node.fits_iff.2 hfits) (by decide) rfl
  have hwell := hfits.wellFormed_alone rfl (show "n" ≠ "" by decide)
  let s : Service := ⟨⟨.volatile ⟨(nodes.write "n" n).apply .empty, false⟩, {}⟩, 0⟩
  have hw : s.backing.Works := ⟨trivial, rfl⟩
  obtain ⟨all, hlist, -, hall⟩ := hshows.list (s := s.backing.store) trivial
  have hns : nodesWithStatus s.backing.store probedStatuses =
      .ok (all.filter fun n => probedStatuses.contains n.status) := by
    rw [nodesWithStatus, hlist]
    rfl
  have hn : nodes.laws.codec.settle n ∈ all := (hall _).2 (Function.update_self _ _ _)
  have hmem : nodes.laws.codec.settle n ∈
      all.filter fun n => probedStatuses.contains n.status := List.mem_filter.2 ⟨hn, rfl⟩
  obtain ⟨b, hr, hb, hdata⟩ := reaches_removeNode ⟨.refreshHeartbeat, fun _ => "m"⟩ hw
  refine ⟨s, ⟨b, s.issued⟩, _, _, hns, hmem, rfl, hr, ?_⟩
  intro outcome
  have hnow : (⟨⟨1, 0⟩, ⟨1, 500⟩⟩ : Readings).Both (·.inRange = true) := ⟨by decide, by decide⟩
  obtain ⟨-, ⟨o, o', ho, ho', hnone, -⟩, -⟩ :=
    onOutcome_meanwhile hw hwell hns hmem hr hnow 0 outcome rfl
  have hgone : nodes.get b.store "n" = .ok none := by
    have hshows' : nodes.Shows b.store.data _ := hdata ▸ hshows.delete "n"
    rw [hshows'.get hb.plain (by decide), Function.update_self]
  obtain rfl : o = none := Except.ok.inj (ho.symm.trans hgone)
  exact hnone rfl ▸ ho'

end Detector

end ControlPlane
