import ControlPlane.Proofs.Registry.Node

/-!
# Sound stores

A store is sound if each of its entries is a node, a model or a replica that stands under its own
id, and no node bears a stamp past a bound (`KeyMap.Sound`). In a sound store every record can be
looked up and listed. What may be written into one without making it unsound is a sound change
(`Change.Sound`).
-/

namespace ControlPlane

/-- Whether the stamp of a node is not past a bound. -/
def Node.StampedBy (bound : Int) (n : Node) : Prop :=
  ∀ t, n.updatedAt = some t → t.ticks ≤ bound

/-- Whether an entry is a record under its own id. The stamps of nodes have bounds by id. -/
def SoundEntry (bound : String → Int) (e : String × Bytes) : Prop :=
  nodes.Holds (fun n => n.StampedBy (bound n.id)) e ∨ models.Holds (fun _ => True) e ∨
    replicas.Holds (fun _ => True) e

/-- Whether all entries of a map are records under their own ids. -/
def KeyMap.Sound (bound : String → Int) (m : KeyMap) : Prop :=
  ∀ e ∈ m.entries, SoundEntry bound e

/-- Whether a change keeps a map sound. -/
def Change.Sound (bound : String → Int) : Change → Prop
  | .put key value => SoundEntry bound (key, value)
  | .delete key => key ≠ ""

variable {bound bound' : String → Int}

/-! ## Keys of the three kinds -/

/-- The keys of a registry do not begin with another text than its own. -/
theorem Registry.Holds.not_beginsWith {α : Type} {r : Registry α} {P : α → Prop} {start : String}
    (h : ∀ cs, start.toList.isPrefixOf (r.keyStart.toList ++ cs) = false) {e : String × Bytes}
    (he : r.Holds P e) : ¬KeyMap.beginsWith start e.1 = true := by
  obtain ⟨a, -, -, hk, -⟩ := he
  rw [hk, KeyMap.beginsWith, Registry.key, String.toList_append, h]
  exact Bool.false_ne_true

theorem SoundEntry.key_ne {e : String × Bytes} (h : SoundEntry bound e) : e.1 ≠ "" := by
  rcases h with ⟨a, -, -, hk, -⟩ | ⟨a, -, -, hk, -⟩ | ⟨a, -, -, hk, -⟩ <;>
    exact hk ▸ Registry.key_ne_empty _ _

theorem Change.Sound.key_ne {c : Change} (h : c.Sound bound) : c.key ≠ "" := by
  cases c with
  | put key value => exact SoundEntry.key_ne h
  | delete key => exact h

namespace KeyMap.Sound

variable {m : KeyMap} {s : Store}

theorem keeps_nodes (h : s.data.Sound bound) :
    nodes.Keeps (fun n => n.StampedBy (bound n.id)) s := by
  intro e he hb
  rcases h e he with h | h | h
  · exact h
  · exact absurd hb (h.not_beginsWith fun _ => rfl)
  · exact absurd hb (h.not_beginsWith fun _ => rfl)

theorem keeps_models (h : s.data.Sound bound) : models.Keeps (fun _ => True) s := by
  intro e he hb
  rcases h e he with h | h | h
  · exact absurd hb (h.not_beginsWith fun _ => rfl)
  · exact h
  · exact absurd hb (h.not_beginsWith fun _ => rfl)

theorem keeps_replicas (h : s.data.Sound bound) : replicas.Keeps (fun _ => True) s := by
  intro e he hb
  rcases h e he with h | h | h
  · exact absurd hb (h.not_beginsWith fun _ => rfl)
  · exact absurd hb (h.not_beginsWith fun _ => rfl)
  · exact h

/-! ## What stays sound -/

theorem empty (bound : String → Int) : KeyMap.empty.Sound bound := by
  intro e he
  cases he

theorem mono (h : m.Sound bound) (hb : ∀ id, bound id ≤ bound' id) : m.Sound bound' := by
  intro e he
  refine (h e he).imp_left fun hn => hn.mono fun n hs t ht => ?_
  exact (hs t ht).trans (hb n.id)

/-- A sound change keeps a map sound. -/
theorem apply (h : m.Sound bound) {c : Change} (hc : c.Sound bound) : (c.apply m).Sound bound := by
  intro e he
  cases c with
  | put key value =>
    rcases KeyMap.mem_of_mem_insert he with rfl | he
    · exact hc
    · exact h e he
  | delete key => exact h e (KeyMap.mem_of_mem_erase he)

end KeyMap.Sound

/-! ## Sound writes -/

/-- Writing a node that bears no stamp past its bound. -/
theorem Node.sound_write {n : Node} {id : String} (hf : n.Fits) (hid : n.id = id) (hne : id ≠ "")
    (hs : n.StampedBy (bound id)) : (nodes.write id n).Sound bound := by
  subst hid
  refine .inl (nodes.laws.holds_write (Node.fits_iff.2 hf) hne fun t ht => ?_)
  obtain ⟨u, hu, rfl⟩ := Option.map_eq_some_iff.1 (show n.updatedAt.map Instant.settled = some t
    from ht)
  rw [Instant.ticks_settled]
  exact hs u hu

theorem Model.sound_write {m : Model} {id : String} (hf : models.laws.Fits m) (hid : m.id = id)
    (hne : id ≠ "") : (models.write id m).Sound bound := by
  subst hid
  exact .inr (.inl (models.laws.holds_write hf hne trivial))

theorem Replica.sound_write {r : Replica} {id : String} (hf : replicas.laws.Fits r)
    (hid : r.id = id) (hne : id ≠ "") : (replicas.write id r).Sound bound := by
  subst hid
  exact .inr (.inr (replicas.laws.holds_write hf hne trivial))

/-! ## Decisions -/

/-- Whether the bound of a node's stamps leaves room for one more at a time of the clock. -/
structure Room (bound bound' : String → Int) (id : String) (now : Instant) : Prop where
  inRange : now.inRange = true
  clock : now.ticks ≤ bound' id
  later : bound id + 1000 ≤ bound' id
  last : bound' id ≤ Instant.lastTick

namespace Node

variable {s : Store} {now : Instant} {id : String}

/-- A node that was looked up gets a stamp. -/
theorem nextStamp_fair {n : Node} (hr : Room bound bound' id now) (hf : n.Fits)
    (hs : n.StampedBy (bound id)) :
    Fair (fun stamp => stamp.inRange = true ∧ stamp.ticks ≤ bound' id)
      (nextStamp now n.updatedAt) := by
  have hp : ∀ t, n.updatedAt = some t → t.inRange = true ∧ t.ticks + 1000 ≤ bound' id := by
    intro t ht
    have := hs t ht
    have := hr.later
    exact ⟨hf.updatedAt t ht, by omega⟩
  obtain ⟨stamp, hn, hi, ht⟩ := nextStamp_spec hr.inRange hr.clock hp hr.last
  rw [hn]
  exact .ok ⟨hi, ht⟩

theorem stampedBy_of_eq {n : Node} {bound : Int} {stamp : Instant} (hu : n.updatedAt = some stamp)
    (ht : stamp.ticks ≤ bound) : n.StampedBy bound := by
  intro t h
  rw [hu] at h
  exact Option.some.inj h ▸ ht

/-- Looking a node up in a sound store. -/
theorem require_fair (h : s.data.Sound bound) (id : String) :
    Fair (fun n => id ≠ "" ∧ n.id = id ∧ n.StampedBy (bound id) ∧ n.Fits)
      (nodes.require s id) := by
  refine (Registry.require_spec nodes.laws h.keeps_nodes id).mono fun n ⟨hid, hn, hs, hf⟩ => ?_
  have hn : n.id = id := hn
  exact ⟨hid, hn, hn ▸ hs, fits_iff.1 hf⟩

theorem register_fair {n : Node} (hi : now.inRange = true) (hc : now.ticks ≤ bound' id)
    (hf : n.Fits) : Fair (Change.Sound bound') (Node.register now id n) := by
  refine (nodes.stamp_spec id n).bind fun n' ⟨hid, hn⟩ => ?_
  subst hn
  have hf : Fits { n with id := id } := ⟨hf.1, hf.2, hf.3, hf.4, hf.5⟩
  exact .ok (sound_write (hf.registered hi) rfl hid (stampedBy_of_eq rfl hc))

theorem update_fair {n : Node} (h : s.data.Sound bound) (hr : Room bound bound' id now)
    (hf : n.Fits) : Fair (Change.Sound bound') (Node.update s now id n) := by
  refine (nodes.stamp_spec id n).bind fun n' ⟨hid, hn⟩ => ?_
  subst hn
  have hf : Fits { n with id := id } := ⟨hf.1, hf.2, hf.3, hf.4, hf.5⟩
  refine (Registry.get_spec nodes.laws h.keeps_nodes id).bind fun o ⟨_, ho⟩ => ?_
  cases o with
  | none => exact .ok (sound_write (hf.updated hr.inRange) rfl hid (stampedBy_of_eq rfl hr.clock))
  | some older =>
    obtain ⟨hid', hs, hfo⟩ := ho older rfl
    have hid' : older.id = id := hid'
    rw [Node.fits_iff] at hfo
    refine (nextStamp_fair hr hfo (hid' ▸ hs)).bind fun stamp ⟨hi, ht⟩ => ?_
    exact .ok (sound_write ((hf.inheriting hfo).updated hi) rfl hid (stampedBy_of_eq rfl ht))

theorem setStatus_fair (h : s.data.Sound bound) (hr : Room bound bound' id now)
    (policy : StatusPolicy) (status : NodeStatus) :
    Fair (Change.Sound bound') (Node.setStatus s now policy id status) := by
  refine (require_fair h id).bind fun n ⟨hid, hn, hs, hf⟩ => ?_
  refine (nextStamp_fair hr hf hs).bind fun stamp ⟨hi, ht⟩ => ?_
  exact .ok (sound_write (hf.withStatus hi status policy) hn hid (stampedBy_of_eq rfl ht))

theorem markUnreachable_fair (h : s.data.Sound bound) (hr : Room bound bound' id now)
    (status : NodeStatus) :
    Fair (Change.Sound bound') (Node.markUnreachable s now id status) := by
  refine (require_fair h id).bind fun n ⟨hid, hn, hs, hf⟩ => ?_
  refine (nextStamp_fair hr hf hs).bind fun stamp ⟨hi, ht⟩ => ?_
  exact .ok (sound_write (hf.unreachable hi status) hn hid (stampedBy_of_eq rfl ht))

theorem recordHeartbeat_fair {time : Instant} (h : s.data.Sound bound)
    (hr : Room bound bound' id now) (htime : time.inRange = true) :
    Fair (fun r => r.1.Sound bound') (Node.recordHeartbeat s now id time) := by
  refine (require_fair h id).bind fun n ⟨hid, hn, hs, hf⟩ => ?_
  refine (nextStamp_fair hr hf hs).bind fun stamp ⟨hi, ht⟩ => ?_
  exact .ok (sound_write (hf.heard htime hi) hn hid (stampedBy_of_eq rfl ht))

end Node

theorem Model.put_fair {m : Model} (hf : models.laws.Fits m) (id : String) :
    Fair (Change.Sound bound) (models.put id m) := by
  refine (models.put_spec id m).mono fun c ⟨hid, hc⟩ => ?_
  subst hc
  exact sound_write (models.laws.fits_withId hf) rfl hid

theorem Replica.put_fair {r : Replica} (hf : replicas.laws.Fits r) (id : String) :
    Fair (Change.Sound bound) (replicas.put id r) := by
  refine (replicas.put_spec id r).mono fun c ⟨hid, hc⟩ => ?_
  subst hc
  exact sound_write (replicas.laws.fits_withId hf) rfl hid

theorem Registry.remove_fair {α : Type} (r : Registry α) (id : String) :
    Fair (Change.Sound bound) (r.remove id) := by
  refine (r.remove_spec id).mono fun c hc => ?_
  subst hc
  exact r.key_ne_empty id

end ControlPlane
