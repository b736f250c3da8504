import ControlPlane.Proofs.Api.Atomic
import ControlPlane.Proofs.Entity.Survival
import ControlPlane.Proofs.Json.Reread
import ControlPlane.Proofs.Registry.Finds
import ControlPlane.Proofs.Registry.NodeChange

/-!
# The time of registration

The record of a node bears the time at which the node was registered. Unless the node is taken away,
that time stays the same through any number of operations, whatever they come to, as long as none of
them gives another one (`Operation.registeredAt_runAll`). An operation that does rewrites it: a
replacement whose record bears a time, and a registration, which never looks at the record that is
there (`Operation.registeredAt_registered_again`).
-/

namespace ControlPlane

/-- An instant that is read is genuine. -/
theorem Instant.genuine_settled {t : Instant} (h : t.inRange = true) : t.settled.Genuine :=
  genuine_of_parse? (parse?_render h)

/-- The time of registration is read as it was written, whatever else is not. -/
theorem Node.registeredAt_of_reread {n m : Node} (hr : Instant.OptionInRange n.registeredAt)
    (h : nodes.codec.ofBytes (nodes.codec.toBytes n) = .ok m) :
    m.registeredAt = n.registeredAt.map Instant.settled := by
  obtain ⟨-, -, -, -, -, -, -, -, -, hregistered, -⟩ :=
    Codec.rereads_of_ofBytes_toBytes (by decide) (fun _ => rfl) h
  exact Field.Rereads.optional .instant Codec.write_instant_ne_null hr hregistered

/-- Whether a map has an entry for a node, and one that bears the given time of registration if it
can be read. -/
def RegisteredAt (m : KeyMap) (id : String) (t : Instant) : Prop :=
  ∃ bs, m.get? (nodes.key id) = some bs ∧
    ∀ n, nodes.codec.ofBytes bs = .ok n → n.registeredAt = some t

namespace RegisteredAt

variable {m : KeyMap} {s : Store} {id : String} {t : Instant} {n : Node}

theorem of_finds (h : nodes.Finds m id n) (ht : n.registeredAt = some t) :
    RegisteredAt m id t := by
  obtain ⟨bs, hbs, hn⟩ := h
  refine ⟨bs, hbs, ?_⟩
  intro n' hn'
  obtain rfl : n = n' := Except.ok.inj (hn.symm.trans hn')
  exact ht

theorem eq_of_finds (h : RegisteredAt m id t) (hn : nodes.Finds m id n) :
    n.registeredAt = some t := by
  obtain ⟨bs, hbs, ht⟩ := h
  obtain ⟨bs', hbs', hn⟩ := hn
  obtain rfl := Option.some.inj (hbs.symm.trans hbs')
  exact ht n hn

/-- What is looked up was registered at that time. -/
theorem get (h : RegisteredAt s.data id t) (hs : s.Plain) :
    (nodes.get s id).Yields fun o => ∃ n, o = some n ∧ n.registeredAt = some t := by
  intro o ho
  obtain ⟨-, ⟨hnone, -⟩ | ⟨n, rfl, hn⟩⟩ := (Registry.get_eq_ok hs).1 ho
  · obtain ⟨bs, hbs, -⟩ := h
    rw [hbs] at hnone
    cases hnone
  · exact ⟨n, rfl, h.eq_of_finds hn⟩

theorem require (h : RegisteredAt s.data id t) (hs : s.Plain) :
    (nodes.require s id).Yields fun n => n.registeredAt = some t := by
  intro n hn
  exact h.eq_of_finds ((Registry.require_eq_ok hs).1 hn).2

theorem apply_of_ne (h : RegisteredAt m id t) {c : Change} (hc : c.key ≠ nodes.key id) :
    RegisteredAt (c.apply m) id t := by
  unfold RegisteredAt
  rw [Change.get?_apply_of_ne hc.symm]
  exact h

/-- A record that is written gives its time of registration. -/
theorem write (m : KeyMap) (id : String) (ht : t.inRange = true) (hn : n.registeredAt = some t) :
    RegisteredAt ((nodes.write id n).apply m) id t.settled := by
  refine ⟨nodes.codec.toBytes n, ?_, ?_⟩
  · show (m.insert (nodes.key id) (nodes.codec.toBytes n)).get? (nodes.key id) = _
    rw [KeyMap.get?_insert, if_pos rfl]
  · intro n' hn'
    have hr := Node.registeredAt_of_reread (by rw [hn]; exact Instant.optionInRange_some ht) hn'
    rw [hr, hn]
    rfl

end RegisteredAt

namespace Operation

/-! ## One operation -/

/-- The time of registration that an operation itself gives to the node with an id. -/
def registration? (id : String) (now : Instant) : Operation → Option Instant
  | registerNode id' n => if id' = id then some (n.registeredAt.getD now) else none
  | updateNode id' n => if id' = id then n.registeredAt else none
  | _ => none

/-- Whether a time of registration that an operation carries is one of the calendar. -/
def Timely : Operation → Prop
  | registerNode _ n | updateNode _ n => Instant.OptionInRange n.registeredAt
  | _ => True

/-- The key of the record that an operation is about. -/
def key : Operation → String
  | registerNode id _ | updateNode id _ | setNodeStatus _ id _ | markUnreachable id _
  | recordHeartbeat id _ | removeNode id => nodes.key id
  | putModel id _ | removeModel id => models.key id
  | putReplica id _ | removeReplica id => replicas.key id

variable {id : String} {now t : Instant} {s : Store} {b b' : Backing}

theorem registration?_inRange {op : Operation} (hop : op.Timely) (hnow : now.inRange = true) :
    Instant.OptionInRange (op.registration? id now) := by
  cases op with
  | registerNode id' n =>
    rw [registration?]
    split
    · exact Instant.OptionInRange.getD hop hnow
    · exact Instant.optionInRange_none
  | updateNode id' n =>
    rw [registration?]
    split
    · exact hop
    · exact Instant.optionInRange_none
  | _ => exact Instant.optionInRange_none

/-- An operation that comes to a change is about its key. -/
theorem decide_key (op : Operation) (s : Store) (now : Instant) :
    (op.decide s now).Yields fun r => r.1.key = op.key := by
  cases op with
  | registerNode id n =>
    refine .bind (P := fun c => c.key = nodes.key id) ?_ fun _ hc => .pure hc
    exact .bind .any fun _ _ => .pure rfl
  | updateNode id n =>
    refine .bind (P := fun c => c.key = nodes.key id) ?_ fun _ hc => .pure hc
    refine .bind .any fun _ _ => .bind .any fun o _ => ?_
    cases o with
    | none => exact .pure rfl
    | some older => exact .bind .any fun _ _ => .pure rfl
  | setNodeStatus policy id status =>
    refine .bind (P := fun c => c.key = nodes.key id) ?_ fun _ hc => .pure hc
    exact .bind .any fun _ _ => .bind .any fun _ _ => .pure rfl
  | markUnreachable id status =>
    refine .bind (P := fun c => c.key = nodes.key id) ?_ fun _ hc => .pure hc
    exact .bind .any fun _ _ => .bind .any fun _ _ => .pure rfl
  | recordHeartbeat id time =>
    refine .bind (P := fun r => r.1.key = nodes.key id) ?_ fun _ hc => .pure hc
    exact .bind .any fun _ _ => .bind .any fun _ _ => .pure rfl
  | removeNode id => exact (nodes.remove_yields id).bind fun _ hc => .pure hc
  | putModel id m => exact (models.put_yields id m).bind fun _ hc => .pure hc
  | removeModel id => exact (models.remove_yields id).bind fun _ hc => .pure hc
  | putReplica id r => exact (replicas.put_yields id r).bind fun _ hc => .pure hc
  | removeReplica id => exact (replicas.remove_yields id).bind fun _ hc => .pure hc

/-- An operation about another record gives no time of registration. -/
theorem registration?_of_key_ne {op : Operation} (h : op.key ≠ nodes.key id) :
    op.registration? id now = none := by
  cases op with
  | registerNode id' n | updateNode id' n =>
    refine if_neg ?_
    rintro rfl
    exact h rfl
  | _ => rfl

/-- A record that gets its id keeps its time of registration. -/
theorem stamp_yields (id : String) (n : Node) :
    (nodes.stamp id n).Yields fun n' => n'.registeredAt = n.registeredAt := by
  intro n' hn'
  rcases nodes.stamp_spec id n with ⟨e, he, -⟩ | ⟨m, hm, -, rfl⟩
  · rw [he] at hn'
    cases hn'
  · obtain rfl := Except.ok.inj (hm.symm.trans hn')
    rfl

/-- An operation about a node that is there, other than taking it away, writes its record with the
time of registration that it gives or else with the one that was there. -/
theorem decide_write {op : Operation} (hs : s.Plain) (h : RegisteredAt s.data id t)
    (hkey : op.key = nodes.key id) (hop : op ≠ .removeNode id) :
    (op.decide s now).Yields fun r => ∃ n, r.1 = nodes.write id n ∧
      n.registeredAt = some ((op.registration? id now).getD t) := by
  have writes : ∀ {x : Except RegistryError Change} {u : Instant},
      (x.Yields fun c => ∃ n, c = nodes.write id n ∧ n.registeredAt = some u) →
      (do return (← x, none)).Yields fun r : Change × Option NodeStatus =>
        ∃ n, r.1 = nodes.write id n ∧ n.registeredAt = some u := by
    intro x u hx
    exact hx.bind fun c hc => .pure hc
  cases op with
  | registerNode id' n =>
    obtain rfl : id' = id := Registry.key_inj hkey
    refine writes ((stamp_yields id' n).bind fun n' hn' => .pure ⟨_, rfl, ?_⟩)
    rw [registration?, if_pos rfl, Node.registered, hn']
    rfl
  | updateNode id' n =>
    obtain rfl : id' = id := Registry.key_inj hkey
    refine writes ((stamp_yields id' n).bind fun n' hn' => (h.get hs).bind fun o ho => ?_)
    obtain ⟨older, rfl, holder⟩ := ho
    refine .bind .any fun stamp _ => .pure ⟨_, rfl, ?_⟩
    rw [registration?, if_pos rfl, Node.updated, Node.inheriting, hn', holder]
    cases n.registeredAt <;> rfl
  | setNodeStatus policy id' status =>
    obtain rfl : id' = id := Registry.key_inj hkey
    exact writes ((h.require hs).bind fun n hn => .bind .any fun _ _ => .pure ⟨_, rfl, hn⟩)
  | markUnreachable id' status =>
    obtain rfl : id' = id := Registry.key_inj hkey
    exact writes ((h.require hs).bind fun n hn => .bind .any fun _ _ => .pure ⟨_, rfl, hn⟩)
  | recordHeartbeat id' time =>
    obtain rfl : id' = id := Registry.key_inj hkey
    refine .bind (P := fun r => ∃ n, r.1 = nodes.write id' n ∧ n.registeredAt = some t) ?_
      fun _ hr => .pure hr
    exact (h.require hs).bind fun n hn => .bind .any fun _ _ => .pure ⟨_, rfl, hn⟩
  | removeNode id' =>
    obtain rfl : id' = id := Registry.key_inj hkey
    exact absurd rfl hop
  | putModel id' m | removeModel id' =>
    rw [key] at hkey
    exact absurd hkey.symm (Registry.nodes_apart_models id id')
  | putReplica id' r | removeReplica id' =>
    rw [key] at hkey
    exact absurd hkey.symm (Registry.nodes_apart_replicas id id')

/-- What an operation other than taking the node away makes of the time of registration: nothing if
it comes to an error, and otherwise the time that it gives, if it gives one. -/
theorem registeredAt_run {op : Operation} (hs : b.store.Plain) (ht : t.Genuine)
    (h : RegisteredAt b.store.data id t) (hnow : now.inRange = true) (htimely : op.Timely)
    (hop : op ≠ .removeNode id) {x : Except RegistryError (Option NodeStatus)}
    (hr : op.run now b = (x, b')) :
    b'.store.Plain ∧ ((∃ e, x = .error e ∧ RegisteredAt b'.store.data id t) ∨
      ∃ r, x = .ok r ∧
        RegisteredAt b'.store.data id ((op.registration? id now).getD t).settled) := by
  obtain ⟨hs', ⟨e, rfl, hdata⟩ | ⟨c, r, hdecide, rfl, hdata⟩⟩ := Backing.perform_spec hs hr
  · exact ⟨hs', .inl ⟨e, rfl, by rw [hdata]; exact h⟩⟩
  refine ⟨hs', .inr ⟨r, rfl, ?_⟩⟩
  rw [hdata]
  by_cases hkey : op.key = nodes.key id
  · obtain ⟨n, rfl, hn⟩ := decide_write hs h hkey hop _ hdecide
    refine .write b.store.data id ?_ hn
    exact (registration?_inRange htimely hnow).getD ht.inRange _ rfl
  · have hc : c.key = op.key := decide_key op b.store now _ hdecide
    rw [registration?_of_key_ne hkey, Option.getD_none, ht.settled_eq]
    exact h.apply_of_ne (by rw [hc]; exact hkey)

/-! ## Any number of operations -/

/-- Carries operations out one after the other, each at its time, whatever they come to. -/
def runAll (b : Backing) : List (Instant × Operation) → Backing
  | [] => b
  | (now, op) :: rest => runAll (op.run now b).2 rest

/-- Whether an operation at a time goes without taking the node away, and its times are those of the
calendar. -/
structure Spares (id : String) (now : Instant) (op : Operation) : Prop where
  clock : now.inRange = true
  timely : op.Timely
  spares : op ≠ .removeNode id

/-- The time of registration that a node has after operations: that of the last one that succeeded
and gave one. -/
def registrationAfter (id : String) (t : Instant) (b : Backing) :
    List (Instant × Operation) → Instant
  | [] => t
  | (now, op) :: rest =>
    match op.run now b with
    | (.ok _, b) => registrationAfter id ((op.registration? id now).getD t).settled b rest
    | (.error _, b) => registrationAfter id t b rest

/-- The record that is there after operations bears the last time of registration that was given. -/
theorem registeredAt_registrationAfter (hs : b.store.Plain) (ht : t.Genuine)
    (h : RegisteredAt b.store.data id t) {ops : List (Instant × Operation)}
    (hops : ∀ o ∈ ops, Spares id o.1 o.2) :
    RegisteredAt (runAll b ops).store.data id (registrationAfter id t b ops) := by
  induction ops generalizing b t with
  | nil => exact h
  | cons o ops ih =>
    obtain ⟨now, op⟩ := o
    obtain ⟨hfirst, hrest⟩ := List.forall_mem_cons.1 hops
    rcases hr : op.run now b with ⟨x, b'⟩
    obtain ⟨hs', ⟨e, rfl, h'⟩ | ⟨r, rfl, h'⟩⟩ :=
      registeredAt_run hs ht h hfirst.clock hfirst.timely hfirst.spares hr
    · rw [runAll, registrationAfter, hr]
      exact ih hs' ht h' hrest
    · rw [runAll, registrationAfter, hr]
      refine ih hs' (Instant.genuine_settled ?_) h' hrest
      exact (registration?_inRange hfirst.timely hfirst.clock).getD ht.inRange _ rfl

/-- If no operation gives another time of registration, none is the last to do so. -/
theorem registrationAfter_eq (ht : t.Genuine) (b : Backing) {ops : List (Instant × Operation)}
    (hgiven : ∀ o ∈ ops, ∀ u, o.2.registration? id o.1 = some u → u.settled = t) :
    registrationAfter id t b ops = t := by
  induction ops generalizing b with
  | nil => rfl
  | cons o ops ih =>
    obtain ⟨now, op⟩ := o
    obtain ⟨hfirst, hrest⟩ := List.forall_mem_cons.1 hgiven
    have hsettled : ((op.registration? id now).getD t).settled = t := by
      cases hg : op.registration? id now with
      | none => exact ht.settled_eq
      | some u => exact hfirst u hg
    unfold registrationAfter
    split
    · rw [hsettled]
      exact ih _ hrest
    · exact ih _ hrest

/-- Whatever operations other than taking the node away come to, and whatever the disk refuses: the
record of the node stays there and bears the last time of registration that one of them gave. So it
bears the first one for ever if no registration and no replacement gives another. -/
theorem registeredAt_runAll {n : Node} (hs : b.store.Plain) (hn : nodes.Finds b.store.data id n)
    (ht : n.registeredAt = some t) {ops : List (Instant × Operation)}
    (hops : ∀ o ∈ ops, Spares id o.1 o.2) :
    RegisteredAt (runAll b ops).store.data id (registrationAfter id t b ops) ∧
      ((∀ o ∈ ops, ∀ u, o.2.registration? id o.1 = some u → u.settled = t) →
        registrationAfter id t b ops = t) := by
  have hgenuine : t.Genuine := by
    obtain ⟨bs, -, hbs⟩ := hn
    obtain ⟨-, -, -, -, -, -, -, -, -, -, hregistered, -⟩ := nodes.genuine.fits_of_ofBytes hbs
    exact hregistered t ht
  refine ⟨?_, ?_⟩
  · exact registeredAt_registrationAfter hs hgenuine (.of_finds hn ht) hops
  · intro hgiven
    exact registrationAfter_eq hgenuine b hgiven

/-! ## Registering -/

/-- A store that works registers a node, and the node is found as it was registered. -/
theorem run_registerNode (hb : b.Works) (id : String) (n : Node) (now : Instant) (hid : id ≠ "")
    (hn : n.id = "" ∨ n.id = id) (hg : (Node.registered { n with id := id } now).Genuine) :
    ∃ b', (registerNode id n).run now b = (.ok none, b') ∧ b'.Works ∧
      nodes.Finds b'.store.data id
        (nodes.genuine.codec.settle (Node.registered { n with id := id } now)) := by
  have hk : (nodes.write id (Node.registered { n with id := id } now)).key ≠ "" :=
    nodes.key_ne_empty id
  obtain ⟨b', hc, hb', hdata⟩ := hb.commit hk
  refine ⟨b', ?_, hb', ?_⟩
  · rw [run, decide, Node.register_eq hid hn]
    show b.perform (.ok (_, none)) = _
    rw [Backing.perform, hc]
  · rw [hdata]
    exact Registry.finds_write nodes.genuine hg.fits _ id

/-- A node with nothing but an address. -/
def bareNode : Node := { name := "n", ip := "i", port := 1 }

theorem fits_bareNode : ({ bareNode with id := "n" } : Node).Fits where
  capabilities := Capabilities.fits_default (by decide)
  registeredAt := Instant.optionInRange_none
  updatedAt := Instant.optionInRange_none
  lastHeartbeat := Instant.optionInRange_none
  lastActivity := Instant.optionInRange_none

theorem genuine_bareNode (hn : now.Genuine) :
    (Node.registered { bareNode with id := "n" } now).Genuine where
  capabilities := fits_bareNode.capabilities
  registeredAt t ht := Option.some.inj ht ▸ hn
  updatedAt t ht := Option.some.inj ht ▸ hn
  lastHeartbeat t ht := by cases ht
  lastActivity t ht := Option.some.inj ht ▸ hn

/-- A node is set offline and its record replaced, and it stays registered since the start. -/
theorem registeredAt_runAll_replaced : ∃ b, (registerNode "n" bareNode).run ⟨0, 0⟩
    ⟨.volatile .new, {}⟩ = (.ok none, b) ∧
    RegisteredAt (runAll b [(⟨1, 0⟩, setNodeStatus .refreshHeartbeat "n" .offline),
      (⟨2, 0⟩, updateNode "n" bareNode), (⟨3, 0⟩, removeNode "m")]).store.data "n" ⟨0, 0⟩ := by
  have hworks : (⟨.volatile .new, {}⟩ : Backing).Works := ⟨trivial, rfl⟩
  have hclock : (⟨0, 0⟩ : Instant).Genuine := ⟨by decide, by decide⟩
  obtain ⟨b, hr, hb, hn⟩ := run_registerNode hworks "n" bareNode ⟨0, 0⟩ (by decide) (.inl rfl)
    (genuine_bareNode hclock)
  refine ⟨b, hr, ?_⟩
  have hops : ∀ o ∈ [((⟨1, 0⟩ : Instant), setNodeStatus .refreshHeartbeat "n" .offline),
      (⟨2, 0⟩, updateNode "n" bareNode), (⟨3, 0⟩, removeNode "m")], Spares "n" o.1 o.2 := by
    intro o ho
    simp only [List.mem_cons, List.not_mem_nil, or_false] at ho
    rcases ho with rfl | rfl | rfl
    · exact ⟨by decide, trivial, by simp⟩
    · exact ⟨by decide, Instant.optionInRange_none, by simp⟩
    · exact ⟨by decide, trivial, by simp⟩
  obtain ⟨hafter, hkept⟩ := registeredAt_runAll (t := ⟨0, 0⟩) hb.plain hn rfl hops
  rw [hkept] at hafter
  · exact hafter
  · intro o ho u hu
    simp only [List.mem_cons, List.not_mem_nil, or_false] at ho
    rcases ho with rfl | rfl | rfl <;> cases hu

/-- A node that is registered a second time is registered since then. -/
theorem registeredAt_registered_again : ∃ b₁ b₂ n₁ n₂,
    (registerNode "n" bareNode).run ⟨0, 0⟩ ⟨.volatile .new, {}⟩ = (.ok none, b₁) ∧
    (registerNode "n" bareNode).run ⟨1, 0⟩ b₁ = (.ok none, b₂) ∧
    nodes.Finds b₁.store.data "n" n₁ ∧ n₁.registeredAt = some ⟨0, 0⟩ ∧
    nodes.Finds b₂.store.data "n" n₂ ∧ n₂.registeredAt = some ⟨1, 0⟩ := by
  have hworks : (⟨.volatile .new, {}⟩ : Backing).Works := ⟨trivial, rfl⟩
  have hfirst : (⟨0, 0⟩ : Instant).Genuine := ⟨by decide, by decide⟩
  have hsecond : (⟨1, 0⟩ : Instant).Genuine := ⟨by decide, by decide⟩
  obtain ⟨b₁, hr₁, hb₁, hn₁⟩ := run_registerNode hworks "n" bareNode ⟨0, 0⟩ (by decide) (.inl rfl)
    (genuine_bareNode hfirst)
  obtain ⟨b₂, hr₂, -, hn₂⟩ := run_registerNode hb₁ "n" bareNode ⟨1, 0⟩ (by decide) (.inl rfl)
    (genuine_bareNode hsecond)
  exact ⟨b₁, b₂, _, _, hr₁, hr₂, hn₁, rfl, hn₂, rfl⟩

end Operation

end ControlPlane
