import ControlPlane.Proofs.Registry.Registration
import ControlPlane.Proofs.Registry.Stamp

/-!
# The time of the last change

The record of a node bears the stamp of its last change. A change of a record that is there moves
the stamp forward, and not to before the time of the clock, however often the clock stands still or
goes back. Nor does the stamp run away: it is ahead of the latest time of the clock by at most a
microsecond for each change, so there is a later time as long as the clock is not that close to the
last one (`Operation.updatedAt_runAll`).
-/

namespace ControlPlane

namespace Instant

variable {t u v : Instant}

theorem Regular.settled_eq (h : t.Regular) : t.settled = t :=
  Genuine.settled_eq ⟨h.inRange, fun hl => by rw [h.isLeap] at hl; cases hl⟩

/-- What is a microsecond after an instant in no leap second lies in none. -/
theorem Regular.plus?_microsecond (h : t.Regular) (hu : t.plus? microsecond = some u) :
    u.Regular ∧ t.before u = true ∧ u.ticks ≤ t.ticks + 1000 := by
  unfold plus? at hu
  dsimp only at hu
  split at hu
  · rename_i hr
    obtain rfl := Option.some.inj hu
    exact ⟨⟨hr, isLeap_moved_microsecond h.isLeap⟩, t.before_moved_microsecond,
      (ticks_moved_le h.inRange).1⟩
  · cases hu

end Instant

/-! ## Stamps -/

section Stamps

variable {t now stamp : Instant}

/-- A stamp is later than the one before and not before the time of the clock, and unless it is that
time it is at most a microsecond later than the one before. -/
theorem nextStamp_regular (ht : t.Regular) (hn : now.Regular)
    (h : nextStamp now (some t) = .ok stamp) :
    stamp.Regular ∧ t.before stamp = true ∧ stamp.before now = false ∧
      (stamp = now ∨ stamp.ticks ≤ t.ticks + 1000) := by
  unfold nextStamp at h
  dsimp only at h
  split at h
  · rename_i hb
    obtain rfl := Except.ok.inj h
    exact ⟨hn, hb, now.before_irrefl, .inl rfl⟩
  · rename_i hb
    split at h
    · rename_i u hu
      obtain rfl := Except.ok.inj h
      obtain ⟨hr, hlater, hticks⟩ := ht.plus?_microsecond hu
      refine ⟨hr, hlater, ?_, .inr hticks⟩
      rw [Bool.eq_false_iff]
      exact fun hnow => hb (Instant.before_trans hlater hnow)
    · cases h

/-- There is no later time only where the stamp before is less than a microsecond away from the last
one. -/
theorem lastTick_lt_of_nextStamp {e : RegistryError} (ht : t.Regular)
    (h : nextStamp now (some t) = .error e) : Instant.lastTick < t.ticks + 1000 := by
  rw [← Int.not_le]
  intro hl
  obtain ⟨u, hu, -⟩ := Instant.plus?_microsecond ht.inRange hl
  unfold nextStamp at h
  dsimp only at h
  rw [hu] at h
  split at h <;> cases h

end Stamps

/-! ## Records with a stamp -/

/-- The stamp is read as it was written, whatever else is not. -/
theorem Node.updatedAt_of_reread {n m : Node} (hr : Instant.OptionInRange n.updatedAt)
    (h : nodes.codec.ofBytes (nodes.codec.toBytes n) = .ok m) :
    m.updatedAt = n.updatedAt.map Instant.settled := by
  obtain ⟨-, -, -, -, -, -, -, -, -, -, hupdated, -⟩ :=
    Codec.rereads_of_ofBytes_toBytes (by decide) (fun _ => rfl) h
  exact Field.Rereads.optional .instant Codec.write_instant_ne_null hr hupdated

theorem Node.get?_write (m : KeyMap) (id : String) (n : Node) :
    ((nodes.write id n).apply m).get? (nodes.key id) = some (nodes.codec.toBytes n) := by
  show (m.insert (nodes.key id) (nodes.codec.toBytes n)).get? (nodes.key id) = _
  rw [KeyMap.get?_insert, if_pos rfl]

theorem Node.updatedAt_of_finds_write {m : KeyMap} {id : String} {n n' : Node} {t : Instant}
    (ht : t.Regular) (hn : n.updatedAt = some t)
    (h : nodes.Finds ((nodes.write id n).apply m) id n') : n'.updatedAt = some t := by
  obtain ⟨bs, hbs, hread⟩ := h
  obtain rfl := Option.some.inj ((get?_write m id n).symm.trans hbs)
  rw [updatedAt_of_reread (by rw [hn]; exact Instant.optionInRange_some ht.inRange) hread, hn,
    Option.map_some, ht.settled_eq]

/-- Whether the entry of a node, if there is one, bears a stamp that is at least a microsecond below
a bound, if it can be read. -/
def StampedBelow (m : KeyMap) (id : String) (bound : Int) : Prop :=
  ∀ bs, m.get? (nodes.key id) = some bs → ∃ t : Instant, t.Regular ∧ t.ticks + 1000 ≤ bound ∧
    ∀ n, nodes.codec.ofBytes bs = .ok n → n.updatedAt = some t

namespace StampedBelow

variable {m : KeyMap} {id : String} {bound : Int} {n : Node} {t : Instant}

theorem of_none (h : m.get? (nodes.key id) = none) : StampedBelow m id bound := by
  intro bs hbs
  rw [h] at hbs
  cases hbs

theorem of_finds (h : StampedBelow m id bound) (hn : nodes.Finds m id n) :
    ∃ t : Instant, n.updatedAt = some t ∧ t.Regular ∧ t.ticks + 1000 ≤ bound := by
  obtain ⟨bs, hbs, hread⟩ := hn
  obtain ⟨t, ht, hle, hstamp⟩ := h bs hbs
  exact ⟨t, hstamp n hread, ht, hle⟩

theorem apply_of_ne (h : StampedBelow m id bound) {c : Change} (hc : c.key ≠ nodes.key id) :
    StampedBelow (c.apply m) id bound := by
  unfold StampedBelow
  rw [Change.get?_apply_of_ne hc.symm]
  exact h

theorem delete (m : KeyMap) (id : String) (bound : Int) :
    StampedBelow (Change.apply m (.delete (nodes.key id))) id bound := by
  refine of_none ?_
  show (m.erase (nodes.key id)).get? (nodes.key id) = none
  rw [KeyMap.get?_erase, if_pos rfl]

theorem write (m : KeyMap) (id : String) (ht : t.Regular) (hle : t.ticks + 1000 ≤ bound)
    (hn : n.updatedAt = some t) : StampedBelow ((nodes.write id n).apply m) id bound :=
  fun bs hbs => ⟨t, ht, hle, fun _ hread => Node.updatedAt_of_finds_write ht hn ⟨bs, hbs, hread⟩⟩

end StampedBelow

namespace Operation

open Except (bind_eq_error bind_pure_eq_error)

/-! ## One operation -/

/-- Whether an operation changes the record of a node that is there. -/
def Revises (id : String) : Operation → Prop
  | updateNode id' _ | setNodeStatus _ id' _ | markUnreachable id' _ | recordHeartbeat id' _ =>
    id' = id
  | _ => False

variable {id : String} {now t stamp : Instant} {s : Store} {b b' : Backing} {op : Operation}
  {n : Node} {latest : Int} {k : Nat}

/-- Whether a stamp comes after the one of the record that is found. -/
def Follows (s : Store) (id : String) (now stamp : Instant) : Prop :=
  ∃ older, nodes.Finds s.data id older ∧ nextStamp now older.updatedAt = .ok stamp

/-- Whether a change writes the record of a node with a stamp as described. -/
def Stamps (id : String) (P : Instant → Prop) (c : Change) : Prop :=
  ∃ n stamp, c = nodes.write id n ∧ n.updatedAt = some stamp ∧ P stamp

theorem Stamps.mono {P Q : Instant → Prop} {c : Change} (h : Stamps id P c)
    (hpq : ∀ stamp, P stamp → Q stamp) : Stamps id Q c := by
  obtain ⟨n, stamp, hc, hn, hp⟩ := h
  exact ⟨n, stamp, hc, hn, hpq stamp hp⟩

/-- A record that has to be there is written with the stamp that follows. -/
theorem revision_yields {β : Type} (hs : s.Plain) (out : Node → β) (change : β → Change)
    (hout : ∀ n, change (out n) = nodes.write id n) (note : Node → Instant → Node)
    (hnote : ∀ n stamp, (note n stamp).updatedAt = some stamp) :
    Except.Yields (fun x => Stamps id (Follows s id now) (change x)) (do
      let n ← nodes.require s id
      let stamp ← nextStamp now n.updatedAt
      return out (note n stamp)) := by
  refine .bind (P := nodes.Finds s.data id) ?_ fun older holder => ?_
  · exact fun n hn => ((Registry.require_eq_ok hs).1 hn).2
  · refine .bind (P := fun stamp => nextStamp now older.updatedAt = .ok stamp) (fun _ h => h) ?_
    exact fun stamp hstamp => .pure ⟨_, stamp, hout _, hnote older stamp, older, holder, hstamp⟩

/-- An operation that changes the record of a node stamps it with what follows the stamp that is
found. Only where there is no record it is the time of the clock. -/
theorem decide_revises (hs : s.Plain) (hop : op.Revises id) :
    (op.decide s now).Yields fun r => Stamps id (fun stamp =>
      s.data.get? (nodes.key id) = none ∧ stamp = now ∨ Follows s id now stamp) r.1 := by
  have follows : ∀ {c : Change}, Stamps id (Follows s id now) c → Stamps id (fun stamp =>
      s.data.get? (nodes.key id) = none ∧ stamp = now ∨ Follows s id now stamp) c :=
    fun h => h.mono fun _ => .inr
  cases op with
  | updateNode id' n =>
    obtain rfl : id' = id := hop
    refine .bind (P := Stamps id' _) ?_ fun _ hc => .pure hc
    refine .bind .any fun n' _ => .bind (P := fun o => nodes.get s id' = .ok o) (fun _ h => h) ?_
    intro o ho
    obtain ⟨-, ⟨hnone, rfl⟩ | ⟨older, rfl, holder⟩⟩ := (Registry.get_eq_ok hs).1 ho
    · exact .pure ⟨_, now, rfl, rfl, .inl ⟨hnone, rfl⟩⟩
    · refine .bind (P := fun stamp => nextStamp now older.updatedAt = .ok stamp) (fun _ h => h) ?_
      exact fun stamp hstamp => .pure ⟨_, stamp, rfl, rfl, .inr ⟨older, holder, hstamp⟩⟩
  | setNodeStatus policy id' status | markUnreachable id' status =>
    obtain rfl : id' = id := hop
    refine .bind ?_ fun _ hc => .pure (follows hc)
    exact revision_yields hs (nodes.write id') (fun c => c) (fun _ => rfl) _ fun _ _ => rfl
  | recordHeartbeat id' time =>
    obtain rfl : id' = id := hop
    refine .bind ?_ fun _ hc => .pure (follows hc)
    exact revision_yields hs (fun n => (nodes.write id' n, n.status)) Prod.fst (fun _ => rfl) _
      fun _ _ => rfl
  | _ => exact hop.elim

/-- What an operation about a node comes to: the record is taken away, or it is written with the
time of the clock or the stamp that follows the one that is found. -/
theorem decide_stamps (hs : s.Plain) (hkey : op.key = nodes.key id) :
    (op.decide s now).Yields fun r => r.1 = .delete (nodes.key id) ∨
      Stamps id (fun stamp => stamp = now ∨ Follows s id now stamp) r.1 := by
  by_cases hop : op.Revises id
  · intro r hr
    exact .inr ((decide_revises hs hop r hr).mono fun _ hp => hp.imp_left And.right)
  cases op with
  | registerNode id' n =>
    obtain rfl : id' = id := Registry.key_inj hkey
    refine .bind (P := Stamps id' _) ?_ fun _ hc => .pure (.inr hc)
    exact .bind .any fun n' _ => .pure ⟨_, now, rfl, rfl, .inl rfl⟩
  | removeNode id' =>
    obtain rfl : id' = id := Registry.key_inj hkey
    refine .bind (P := fun c => c = .delete (nodes.key id')) ?_ fun _ hc => .pure (.inl hc)
    exact .bind .any fun _ _ => .pure rfl
  | updateNode | setNodeStatus | markUnreachable | recordHeartbeat =>
    exact absurd (Registry.key_inj hkey) hop
  | putModel id' m | removeModel id' => exact absurd hkey.symm (Registry.nodes_apart_models id id')
  | putReplica id' r | removeReplica id' =>
    exact absurd hkey.symm (Registry.nodes_apart_replicas id id')

theorem revision_noLaterTime {β : Type} (hs : s.Plain) {out : Node → Instant → β}
    (h : (do
      let n ← nodes.require s id
      let stamp ← nextStamp now n.updatedAt
      return out n stamp) = .error RegistryError.noLaterTime) :
    ∃ n, nodes.Finds s.data id n ∧ nextStamp now n.updatedAt = .error .noLaterTime := by
  rcases bind_eq_error.1 h with hn | ⟨n, hn, h⟩
  · exact absurd hn (nodes.require_ne_noLaterTime s id)
  · exact ⟨n, ((Registry.require_eq_ok hs).1 hn).2, bind_pure_eq_error.1 h⟩

/-- An operation about a node wants a later time only where none follows the stamp that is found. -/
theorem decide_noLaterTime (hs : s.Plain) (hkey : op.key = nodes.key id)
    (h : op.decide s now = .error .noLaterTime) :
    ∃ n, nodes.Finds s.data id n ∧ nextStamp now n.updatedAt = .error .noLaterTime := by
  cases op with
  | registerNode id' n =>
    have hstamp := bind_pure_eq_error.1 (bind_pure_eq_error.1 h)
    exact absurd hstamp (nodes.stamp_spec id' n).ne_noLaterTime
  | updateNode id' n =>
    obtain rfl : id' = id := Registry.key_inj hkey
    rcases bind_eq_error.1 (bind_pure_eq_error.1 h) with h | ⟨n', -, h⟩
    · exact absurd h (nodes.stamp_spec id' n).ne_noLaterTime
    rcases bind_eq_error.1 h with h | ⟨o, ho, h⟩
    · exact absurd h (nodes.get_ne_noLaterTime s id')
    obtain ⟨-, ⟨-, rfl⟩ | ⟨older, rfl, holder⟩⟩ := (Registry.get_eq_ok hs).1 ho
    · cases h
    · exact ⟨older, holder, bind_pure_eq_error.1 h⟩
  | setNodeStatus policy id' status | markUnreachable id' status | recordHeartbeat id' time =>
    obtain rfl : id' = id := Registry.key_inj hkey
    exact revision_noLaterTime hs (bind_pure_eq_error.1 h)
  | removeNode id' => exact absurd (bind_pure_eq_error.1 h) (nodes.remove_spec id').ne_noLaterTime
  | putModel id' m | removeModel id' => exact absurd hkey.symm (Registry.nodes_apart_models id id')
  | putReplica id' r | removeReplica id' =>
    exact absurd hkey.symm (Registry.nodes_apart_replicas id id')

/-- What an operation makes of the stamp of a node: nothing if it comes to an error or is about
another record, and otherwise one that is at most a microsecond further ahead of the clock. -/
theorem stampedBelow_run (hs : b.store.Plain)
    (h : StampedBelow b.store.data id (latest + 1000 * k))
    (hnow : op.key = nodes.key id → now.Regular ∧ now.ticks ≤ latest)
    {x : Except RegistryError (Option NodeStatus)} (hr : op.run now b = (x, b')) :
    b'.store.Plain ∧
      ((∃ e, x = .error e ∧ StampedBelow b'.store.data id (latest + 1000 * k)) ∨
      ∃ r, x = .ok r ∧ StampedBelow b'.store.data id
        (latest + 1000 * (k + if op.key = nodes.key id then 1 else 0 : Nat))) := by
  obtain ⟨hs', ⟨e, rfl, hdata⟩ | ⟨c, r, hdecide, rfl, hdata⟩⟩ := Backing.perform_spec hs hr
  · exact ⟨hs', .inl ⟨e, rfl, by rw [hdata]; exact h⟩⟩
  refine ⟨hs', .inr ⟨r, rfl, ?_⟩⟩
  rw [hdata]
  by_cases hkey : op.key = nodes.key id
  · rw [if_pos hkey]
    obtain ⟨hregular, hle⟩ := hnow hkey
    rcases decide_stamps hs hkey _ hdecide with hc | ⟨n, stamp, hc, hn, hp⟩
    · dsimp only at hc
      rw [hc]
      exact .delete _ _ _
    · dsimp only at hc
      rw [hc]
      rcases hp with rfl | ⟨older, holder, hstamp⟩
      · exact .write _ _ hregular (by omega) hn
      · obtain ⟨t, ht, htr, htle⟩ := h.of_finds holder
        rw [ht] at hstamp
        obtain ⟨hsr, -, -, hahead⟩ := nextStamp_regular htr hregular hstamp
        refine .write _ _ hsr ?_ hn
        rcases hahead with rfl | hahead <;> omega
  · rw [if_neg hkey]
    refine h.apply_of_ne ?_
    rwa [op.decide_key b.store now _ hdecide]

/-! ## Any number of operations -/

/-- How many of some operations succeed and are about a node. -/
def successes (id : String) (b : Backing) : List (Instant × Operation) → Nat
  | [] => 0
  | (now, op) :: rest =>
    match op.run now b with
    | (.ok _, b) => (if op.key = nodes.key id then 1 else 0) + successes id b rest
    | (.error _, b) => successes id b rest

theorem stampedBelow_runAll (hs : b.store.Plain)
    (h : StampedBelow b.store.data id (latest + 1000 * k)) {ops : List (Instant × Operation)}
    (hops : ∀ o ∈ ops, o.2.key = nodes.key id → o.1.Regular ∧ o.1.ticks ≤ latest) :
    (runAll b ops).store.Plain ∧ StampedBelow (runAll b ops).store.data id
      (latest + 1000 * (k + successes id b ops : Nat)) := by
  induction ops generalizing b k with
  | nil => exact ⟨hs, h⟩
  | cons o ops ih =>
    obtain ⟨now, op⟩ := o
    obtain ⟨hfirst, hrest⟩ := List.forall_mem_cons.1 hops
    rcases hr : op.run now b with ⟨x, b'⟩
    obtain ⟨hs', ⟨e, rfl, h'⟩ | ⟨r, rfl, h'⟩⟩ := stampedBelow_run hs h hfirst hr
    · rw [runAll, successes, hr]
      exact ih hs' h' hrest
    · rw [runAll, successes, hr, ← Nat.add_assoc]
      exact ih hs' h' hrest

theorem exists_latest (id : String) (ops : List (Instant × Operation)) :
    ∃ latest : Int, ∀ o ∈ ops, o.2.key = nodes.key id → o.1.ticks ≤ latest := by
  induction ops with
  | nil => exact ⟨0, by simp⟩
  | cons o ops ih =>
    obtain ⟨latest, h⟩ := ih
    refine ⟨max o.1.ticks latest, List.forall_mem_cons.2 ⟨fun _ => Int.le_max_left _ _, ?_⟩⟩
    exact fun o' ho' hkey => (h o' ho' hkey).trans (Int.le_max_right _ _)

/-- Whatever operations come to, and however the clock goes: from a store without a node on, the
record of the node bears a stamp that is ahead of the latest time of the clock by no more than a
microsecond for each success. The next change of the record, at any time, gives it a later stamp,
which is not before that time. No later time is wanted unless the clock is that close to the last
one. -/
theorem updatedAt_runAll (hs : b.store.Plain) (hnone : b.store.data.get? (nodes.key id) = none)
    {ops : List (Instant × Operation)}
    (hops : ∀ o ∈ ops, o.2.key = nodes.key id → o.1.Regular) :
    (∀ n, nodes.Finds (runAll b ops).store.data id n → ∃ t, n.updatedAt = some t ∧
      ∀ latest, (∀ o ∈ ops, o.2.key = nodes.key id → o.1.ticks ≤ latest) →
        t.ticks ≤ latest + 1000 * successes id b ops) ∧
    (∀ (op : Operation) now bs x b', op.Revises id → now.Regular →
      (runAll b ops).store.data.get? (nodes.key id) = some bs →
      op.run now (runAll b ops) = (.ok x, b') →
      ∃ n t n' t', nodes.Finds (runAll b ops).store.data id n ∧ n.updatedAt = some t ∧
        b'.store.data.get? (nodes.key id) = some (nodes.codec.toBytes n') ∧
        n'.updatedAt = some t' ∧ t.before t' = true ∧ t'.before now = false ∧
        ∀ m, nodes.Finds b'.store.data id m → m.updatedAt = some t') ∧
    ∀ (op : Operation) now b', op.key = nodes.key id →
      op.run now (runAll b ops) = (.error .noLaterTime, b') →
      ∀ latest, (∀ o ∈ ops, o.2.key = nodes.key id → o.1.ticks ≤ latest) →
        Instant.lastTick < latest + 1000 * successes id b ops := by
  have below : ∀ latest : Int, (∀ o ∈ ops, o.2.key = nodes.key id → o.1.ticks ≤ latest) →
      (runAll b ops).store.Plain ∧ StampedBelow (runAll b ops).store.data id
        (latest + 1000 * (0 + successes id b ops : Nat)) := fun latest hlatest =>
    stampedBelow_runAll hs (.of_none hnone) fun o ho hkey => ⟨hops o ho hkey, hlatest o ho hkey⟩
  simp only [Nat.zero_add] at below
  obtain ⟨latest₀, hlatest₀⟩ := exists_latest id ops
  obtain ⟨hplain, hbelow₀⟩ := below latest₀ hlatest₀
  refine ⟨?_, ?_, ?_⟩
  · intro n hn
    obtain ⟨t, ht, -, -⟩ := hbelow₀.of_finds hn
    refine ⟨t, ht, fun latest hlatest => ?_⟩
    obtain ⟨t', ht', -, hle⟩ := (below latest hlatest).2.of_finds hn
    obtain rfl := Option.some.inj (ht.symm.trans ht')
    omega
  · intro op now bs x b' hop hnow hbs hr
    obtain ⟨-, ⟨e, he, -⟩ | ⟨c, r, hdecide, -, hdata⟩⟩ := Backing.perform_spec hplain hr
    · cases he
    obtain ⟨n', t', hc, hn', ⟨hnone, -⟩ | ⟨n, hn, hstamp⟩⟩ := decide_revises hplain hop _ hdecide
    · rw [hnone] at hbs
      cases hbs
    obtain ⟨t, ht, htr, -⟩ := hbelow₀.of_finds hn
    rw [ht] at hstamp
    obtain ⟨htr', hlater, hclock, -⟩ := nextStamp_regular htr hnow hstamp
    dsimp only at hc
    rw [hdata, hc]
    exact ⟨n, t, n', t', hn, ht, Node.get?_write _ _ _, hn', hlater, hclock,
      fun m => Node.updatedAt_of_finds_write htr' hn'⟩
  · intro op now b' hkey hr latest hlatest
    have hdecide : op.decide (runAll b ops).store now = .error .noLaterTime :=
      Classical.byContradiction fun hne =>
        Backing.perform_ne_noLaterTime hne (congrArg Prod.fst hr)
    obtain ⟨n, hn, hstamp⟩ := decide_noLaterTime hplain hkey hdecide
    obtain ⟨t, ht, htr, hle⟩ := (below latest hlatest).2.of_finds hn
    rw [ht] at hstamp
    have := lastTick_lt_of_nextStamp htr hstamp
    omega

/-- The status of a node is set while the clock stands still, and the stamp goes forward. -/
theorem updatedAt_runAll_setNodeStatus : ∃ b₁ b₂ t,
    (registerNode "n" bareNode).run ⟨0, 0⟩ ⟨.volatile .new, {}⟩ = (.ok none, b₁) ∧
    (setNodeStatus .refreshHeartbeat "n" .offline).run ⟨0, 0⟩ b₁ = (.ok none, b₂) ∧
    Instant.before ⟨0, 0⟩ t = true ∧
    ∀ n, nodes.Finds b₂.store.data "n" n → n.updatedAt = some t := by
  have hworks : (⟨.volatile .new, {}⟩ : Backing).Works := ⟨trivial, rfl⟩
  have hclock : (⟨0, 0⟩ : Instant).Regular := ⟨by decide, by decide⟩
  obtain ⟨b₁, hr₁, hb₁, hn₁⟩ := run_registerNode hworks "n" bareNode ⟨0, 0⟩ (by decide) (.inl rfl)
    (genuine_bareNode ⟨by decide, by decide⟩)
  have hrequire := (Registry.require_eq_ok hb₁.plain).2 ⟨by decide, hn₁⟩
  obtain ⟨n₂, hdecide⟩ : ∃ n₂, (setNodeStatus .refreshHeartbeat "n" .offline).decide b₁.store ⟨0, 0⟩
      = .ok (nodes.write "n" n₂, none) := by
    rw [decide, Node.setStatus, hrequire]
    exact ⟨_, rfl⟩
  have hk : (nodes.write "n" n₂).key ≠ "" := nodes.key_ne_empty "n"
  obtain ⟨b₂, hc, -⟩ := hb₁.commit hk
  have hr₂ : (setNodeStatus .refreshHeartbeat "n" .offline).run ⟨0, 0⟩ b₁ = (.ok none, b₂) := by
    rw [run, hdecide, Backing.perform, hc]
  -- the run before is the registration alone
  have hops : ∀ o ∈ [((⟨0, 0⟩ : Instant), registerNode "n" bareNode)],
      o.2.key = nodes.key "n" → o.1.Regular := by
    simpa using fun _ => hclock
  have hall : runAll ⟨.volatile .new, {}⟩ [(⟨0, 0⟩, registerNode "n" bareNode)] = b₁ := by
    rw [runAll, hr₁]
    rfl
  obtain ⟨-, hlater, -⟩ := updatedAt_runAll hworks.plain rfl hops
  rw [hall] at hlater
  have hfound₁ := hn₁
  obtain ⟨bs, hbs, -⟩ := hfound₁
  have hrevises : (setNodeStatus .refreshHeartbeat "n" .offline).Revises "n" := rfl
  obtain ⟨n, t, n', t', hn, ht, -, -, hbefore, -, hfound⟩ :=
    hlater _ _ bs none b₂ hrevises hclock hbs hr₂
  rw [hn.unique hn₁] at ht
  obtain rfl : ⟨0, 0⟩ = t := Option.some.inj ht
  exact ⟨b₁, b₂, t', hr₁, hr₂, hbefore, hfound⟩

end Operation

end ControlPlane
