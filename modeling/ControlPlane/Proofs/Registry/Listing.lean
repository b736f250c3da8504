import ControlPlane.Proofs.Registry.Registration
import Mathlib.Data.List.Sort

/-!
# Lists and lookups

A registry lists what it looks up. Its list has one record for each key of the kind, in the order
of their bytes, unless one of the values is no record; the smallest key with such a value is named
then (`Registry.Lists`). The filtered lists are made from the list, but for the refusal of the empty
model id, and what an operation of one registry changes is not seen through the others
(`registries_list`).
-/

namespace ControlPlane

/-! ## What a store lists -/

namespace Store

variable {s s' : Store} {start : String}

/-- What a store lists is what it has for the keys that begin with the text. -/
theorem mem_entriesUnder {e : String × Bytes} :
    e ∈ s.entriesUnder start ↔ KeyMap.beginsWith start e.1 = true ∧ s.get? e.1 = some e.2 := by
  cases s with
  | volatile v | durable v =>
    show e ∈ v.data.scan start ↔ _ ∧ v.data.get? e.1 = some e.2
    rw [KeyMap.scan_eq_filter, List.mem_filter, KeyMap.get?_eq_some_iff, and_comm]
  | masked v hidden =>
    refine KeyMap.mem_filterKeys.trans ⟨And.right, fun h => ⟨?_, h⟩⟩
    exact List.mem_map_of_mem (mem_of_get? h.2)

/-- What a store lists is in the order of the keys. -/
theorem sorted_entriesUnder (s : Store) (start : String) :
    (s.entriesUnder start).Pairwise fun d e => d.1 < e.1 := by
  cases s with
  | volatile v | durable v => exact v.data.sorted.sublist (v.data.sublist_scan start)
  | masked v hidden =>
    have hkeys : v.data.keys.Pairwise (· < ·) := List.pairwise_map.2 v.data.sorted
    exact List.pairwise_map.1 (hkeys.sublist (KeyMap.sublist_filterKeys _ _ _))

/-- Stores that have the same for the keys that begin with a text list the same. -/
theorem entriesUnder_eq (h : ∀ k, KeyMap.beginsWith start k = true → s'.get? k = s.get? k) :
    s'.entriesUnder start = s.entriesUnder start := by
  have : Std.Irrefl fun d e : String × Bytes => d.1 < e.1 := ⟨fun e => String.lt_irrefl _⟩
  refine (s'.sorted_entriesUnder start).eq_of_mem_iff (s.sorted_entriesUnder start) ?_
  intro e
  rw [mem_entriesUnder, mem_entriesUnder]
  exact and_congr_right fun hb => by rw [h _ hb]

/-- A change is seen under its own key alone. -/
theorem get?_of_commit {d d' : Disk} {c : Change} (h : s.commit d c = (none, s', d'))
    {k : String} (hk : k ≠ c.key) : s'.get? k = s.get? k := by
  have hdata := data_of_commit h
  have hget : s'.data.get? k = s.data.get? k := by
    rw [hdata]
    exact Change.get?_apply_of_ne hk _
  cases s with
  | volatile v =>
    rcases hc : v.commit c with ⟨e, v'⟩
    rw [commit, hc] at h
    cases h
    exact hget
  | masked v hidden =>
    rcases hc : v.commit c with ⟨e, v'⟩
    rw [commit, hc] at h
    cases h
    show (if hidden.contains k then none else v'.data.get? k) =
      if hidden.contains k then none else v.data.get? k
    rw [show v'.data.get? k = v.data.get? k from hget]
  | durable v =>
    rcases hc : v.commit d c with ⟨e, v', d₁⟩
    rw [commit, hc] at h
    cases h
    exact hget

end Store

/-! ## Lists -/

namespace Registry

variable {α : Type} {r : Registry α} {s s' : Store}

/-- All entries are read if every one of them is. -/
theorem decodeAll_eq_ok {es : List (String × Bytes)} {as : List α} :
    r.decodeAll es = .ok as ↔ List.Forall₂ (fun e a => r.codec.ofBytes e.2 = .ok a) es as := by
  induction es generalizing as with
  | nil =>
    rw [decodeAll, Except.ok.injEq, List.forall₂_nil_left_iff, eq_comm]
  | cons e es ih =>
    obtain ⟨key, bs⟩ := e
    rw [decodeAll, Except.bind_eq_ok]
    constructor
    · rintro ⟨a, ha, h⟩
      obtain ⟨as, has, h⟩ := Except.bind_eq_ok.1 h
      obtain rfl := Except.pure_eq_ok.1 h
      exact .cons (decode_eq_ok.1 ha) (ih.1 has)
    · rintro (_ | ⟨ha, has⟩)
      exact ⟨_, decode_eq_ok.2 ha, Except.bind_eq_ok.2 ⟨_, ih.2 has, rfl⟩⟩

/-- The first entry that is not read spoils the list. -/
theorem decodeAll_eq_error {es : List (String × Bytes)} {e : RegistryError} :
    r.decodeAll es = .error e ↔ ∃ front d rest f, es = front ++ d :: rest ∧
      (∀ c ∈ front, ∃ a, r.codec.ofBytes c.2 = .ok a) ∧ r.codec.ofBytes d.2 = .error f ∧
      e = .decode d.1 f := by
  induction es with
  | nil => simp [decodeAll]
  | cons d es ih =>
    rw [decodeAll, decode]
    cases hd : r.codec.ofBytes d.2 with
    | error f =>
      show Except.error _ = _ ↔ _
      rw [Except.error.injEq]
      constructor
      · rintro rfl
        exact ⟨[], d, es, f, rfl, by simp, hd, rfl⟩
      · rintro ⟨_ | ⟨c, front⟩, d', rest, f', he, hfront, hf', rfl⟩
        · obtain ⟨rfl, rfl⟩ := List.cons.inj he
          rw [Except.error.inj (hd.symm.trans hf')]
        · obtain ⟨rfl, rfl⟩ := List.cons.inj he
          obtain ⟨a, ha⟩ := hfront _ List.mem_cons_self
          cases hd.symm.trans ha
    | ok a =>
      refine Except.bind_pure_eq_error.trans (ih.trans ⟨?_, ?_⟩)
      · rintro ⟨front, d', rest, f, rfl, hfront, hf, rfl⟩
        exact ⟨d :: front, d', rest, f, rfl, List.forall_mem_cons.2 ⟨⟨a, hd⟩, hfront⟩, hf, rfl⟩
      · rintro ⟨_ | ⟨c, front⟩, d', rest, f, he, hfront, hf, rfl⟩
        · obtain ⟨rfl, rfl⟩ := List.cons.inj he
          cases hd.symm.trans hf
        · obtain ⟨rfl, rfl⟩ := List.cons.inj he
          exact ⟨front, d', rest, f, rfl, (List.forall_mem_cons.1 hfront).2, hf, rfl⟩

/-- Whether a store has a value for a key of the kind. -/
def HasEntry (r : Registry α) (s : Store) (key : String) (bs : Bytes) : Prop :=
  KeyMap.beginsWith r.keyStart key = true ∧ s.get? key = some bs

/-- What listing the records of a kind comes to, and how it goes together with looking them up. -/
structure Lists (r : Registry α) (s : Store) : Prop where
  /-- There is a list if all values are records. -/
  ok_iff : (∃ as, r.list s = .ok as) ↔
    ∀ key bs, r.HasEntry s key bs → ∃ a, r.codec.ofBytes bs = .ok a
  /-- The list has one record for each key, in the order of the bytes of the keys, and it is the
  record that is looked up. -/
  listed : ∀ as, r.list s = .ok as → ∃ es : List (String × Bytes),
    (es.Pairwise fun d e => utf8 d.1 < utf8 e.1) ∧
      (∀ key bs, (key, bs) ∈ es ↔ r.HasEntry s key bs) ∧
      List.Forall₂ (fun e a => r.codec.ofBytes e.2 = .ok a ∧
        ∀ id, id ≠ "" → e.1 = r.key id → r.get s id = .ok (some a)) es as
  /-- No record is looked up where there is no key. -/
  absent : ∀ id, id ≠ "" → (∀ bs, ¬r.HasEntry s (r.key id) bs) → r.get s id = .ok none
  /-- What spoils the list is the smallest key whose value is no record. -/
  error_iff : ∀ e, r.list s = .error e ↔ ∃ key bs f, r.HasEntry s key bs ∧
    r.codec.ofBytes bs = .error f ∧ e = .decode key f ∧
      ∀ key' bs', r.HasEntry s key' bs' → utf8 key' < utf8 key → ∃ a, r.codec.ofBytes bs' = .ok a

theorem get_of_some {id : String} {bs : Bytes} {a : α} (hid : id ≠ "")
    (h : s.get? (r.key id) = some bs) (ha : r.codec.ofBytes bs = .ok a) :
    r.get s id = .ok (some a) := by
  rw [get, requireId_of_ne hid, h]
  exact Except.map_eq_ok.2 ⟨a, decode_eq_ok.2 ha, rfl⟩

theorem get_of_none {id : String} (hid : id ≠ "") (h : s.get? (r.key id) = none) :
    r.get s id = .ok none := by
  rw [get, requireId_of_ne hid, h]
  rfl

/-- Every registry lists what it looks up, whatever the store. -/
theorem lists (r : Registry α) (s : Store) : r.Lists s where
  ok_iff := by
    have hok : (∃ as, r.list s = .ok as) ↔ ¬∃ e, r.list s = .error e := by
      cases r.list s <;> simp
    rw [hok, list, decodeAll_error_iff]
    constructor
    · intro h key bs he
      cases hd : r.codec.ofBytes bs with
      | ok a => exact ⟨a, rfl⟩
      | error f => exact absurd ⟨(key, bs), Store.mem_entriesUnder.2 he, f, hd⟩ h
    · rintro h ⟨e, he, f, hf⟩
      obtain ⟨a, ha⟩ := h e.1 e.2 (Store.mem_entriesUnder.1 he)
      cases hf.symm.trans ha
  listed as has := by
    refine ⟨s.entriesUnder r.keyStart, ?_, fun key bs => Store.mem_entriesUnder, ?_⟩
    · exact (s.sorted_entriesUnder _).imp utf8_lt_iff.2
    · have hread := (List.forall₂_and_left _ _).2
        ⟨fun e he => Store.mem_entriesUnder.1 he, decodeAll_eq_ok.1 has⟩
      refine hread.imp ?_
      rintro e a ⟨⟨-, he⟩, ha⟩
      refine ⟨ha, fun id hid hk => get_of_some hid ?_ ha⟩
      rw [← hk, he]
  absent id hid h := by
    refine get_of_none hid (Option.eq_none_iff_forall_ne_some.2 fun bs hbs => ?_)
    exact h bs ⟨r.beginsWith_key id, hbs⟩
  error_iff e := by
    have hsorted := s.sorted_entriesUnder r.keyStart
    rw [list, decodeAll_eq_error]
    constructor
    · rintro ⟨front, d, rest, f, hes, hfront, hf, rfl⟩
      have hd : d ∈ s.entriesUnder r.keyStart := by
        rw [hes]
        simp
      refine ⟨d.1, d.2, f, Store.mem_entriesUnder.1 hd, hf, rfl, ?_⟩
      intro key' bs' he' hlt
      -- a smaller key stands before the one that is named
      have hmem : (key', bs') ∈ s.entriesUnder r.keyStart := Store.mem_entriesUnder.2 he'
      rw [hes] at hmem hsorted
      rcases List.mem_append.1 hmem with hmem | hmem
      · exact hfront _ hmem
      · have hlt := utf8_lt_iff.1 hlt
        rcases List.mem_cons.1 hmem with rfl | hmem
        · exact absurd hlt (String.lt_irrefl _)
        · have hafter := (List.pairwise_cons.1 (List.pairwise_append.1 hsorted).2.1).1 _ hmem
          exact absurd (String.lt_trans hlt hafter) (String.lt_irrefl _)
    · rintro ⟨key, bs, f, he, hf, rfl, hsmaller⟩
      have hmem : (key, bs) ∈ s.entriesUnder r.keyStart := Store.mem_entriesUnder.2 he
      obtain ⟨front, rest, hes⟩ := List.append_of_mem hmem
      refine ⟨front, (key, bs), rest, f, hes, ?_, hf, rfl⟩
      intro c hc
      have hc' : c ∈ s.entriesUnder r.keyStart := by
        rw [hes]
        exact List.mem_append_left _ hc
      rw [hes] at hsorted
      have hlt := (List.pairwise_append.1 hsorted).2.2 c hc _ List.mem_cons_self
      exact hsmaller c.1 c.2 (Store.mem_entriesUnder.1 hc') (utf8_lt_iff.2 hlt)

/-- Whether what a registry looks up and lists is the same in two stores. -/
def SeesSame (r : Registry α) (s s' : Store) : Prop :=
  (∀ id, r.get s' id = r.get s id) ∧ r.list s' = r.list s

/-- A registry sees the same if no key of its kind has another value. -/
theorem seesSame (h : ∀ id, s'.get? (r.key id) = s.get? (r.key id)) : r.SeesSame s s' := by
  constructor
  · intro id
    rw [get, get, h]
  · rw [list, list, Store.entriesUnder_eq]
    intro k hk
    obtain ⟨id, rfl⟩ := exists_of_beginsWith hk
    exact h id

end Registry

/-! ## Operations -/

/-- An operation that succeeds is seen under its own key alone. -/
theorem Operation.get?_of_run {op : Operation} {now : Instant} {b b' : Backing}
    {x : Option NodeStatus} (h : op.run now b = (.ok x, b')) {k : String} (hk : k ≠ op.key) :
    b'.store.get? k = b.store.get? k := by
  unfold run Backing.perform at h
  split at h
  · cases h
  · rename_i c y hdecide
    rcases hc : b.store.commit b.disk c with ⟨_ | e, s', d'⟩
    · rw [Backing.commit, hc] at h
      cases h
      refine Store.get?_of_commit hc ?_
      rwa [op.decide_key b.store now _ hdecide]
    · rw [Backing.commit, hc] at h
      cases h

theorem nodesWithStatus_eq (s : Store) (statuses : List NodeStatus) :
    nodesWithStatus s statuses =
      (nodes.list s).map fun ns => ns.filter fun n => n.status ∈ statuses := by
  rw [nodesWithStatus]
  cases nodes.list s with
  | error e => rfl
  | ok ns =>
    show Except.ok (ns.filter fun n => statuses.contains n.status) = _
    simp only [List.contains_eq_mem, Except.map]

theorem replicasOfModel_eq {modelId : String} (hid : modelId ≠ "") (s : Store) :
    replicasOfModel s modelId =
      (replicas.list s).map fun rs => rs.filter fun r => r.modelId = modelId := by
  rw [replicasOfModel, Registry.requireId_of_ne hid]
  cases replicas.list s with
  | error e => rfl
  | ok rs => rfl

/-- Lists, filtered lists and lookups are of the same records, and what an operation changes is its
own entry. The empty model id is refused. -/
theorem registries_list (s : Store) :
    (nodes.Lists s ∧ models.Lists s ∧ replicas.Lists s) ∧
    (∀ statuses,
      (∀ ns, nodes.list s = .ok ns →
        nodesWithStatus s statuses = .ok (ns.filter fun n => n.status ∈ statuses)) ∧
      ∀ e, nodes.list s = .error e → nodesWithStatus s statuses = .error e) ∧
    (∀ modelId, modelId ≠ "" →
      (∀ rs, replicas.list s = .ok rs →
        replicasOfModel s modelId = .ok (rs.filter fun r => r.modelId = modelId)) ∧
      ∀ e, replicas.list s = .error e → replicasOfModel s modelId = .error e) ∧
    replicasOfModel s "" = .error (.emptyId "model") ∧
    ∀ (op : Operation) now d x b, op.run now ⟨s, d⟩ = (.ok x, b) →
      (∀ k, k ≠ op.key → b.store.get? k = s.get? k) ∧
      (∀ id, op.key = nodes.key id → models.SeesSame s b.store ∧ replicas.SeesSame s b.store) ∧
      (∀ id, op.key = models.key id → nodes.SeesSame s b.store ∧ replicas.SeesSame s b.store) ∧
      ∀ id, op.key = replicas.key id → nodes.SeesSame s b.store ∧ models.SeesSame s b.store := by
  refine ⟨⟨nodes.lists s, models.lists s, replicas.lists s⟩, ?_, ?_, rfl, ?_⟩
  · intro statuses
    rw [nodesWithStatus_eq]
    exact ⟨fun ns h => by rw [h]; rfl, fun e h => by rw [h]; rfl⟩
  · intro modelId hid
    rw [replicasOfModel_eq hid]
    exact ⟨fun rs h => by rw [h]; rfl, fun e h => by rw [h]; rfl⟩
  · intro op now d x b h
    have hget : ∀ k, k ≠ op.key → b.store.get? k = s.get? k := fun k hk => op.get?_of_run h hk
    have same : ∀ {α β : Type} {r : Registry α} {r' : Registry β} {id : String}, r.Apart r' →
        op.key = r.key id → r'.SeesSame s b.store := by
      intro α β r r' id ha hk
      refine Registry.seesSame fun id' => hget _ ?_
      rw [hk]
      exact (ha id id').symm
    refine ⟨hget, fun id hk => ⟨?_, ?_⟩, fun id hk => ⟨?_, ?_⟩, fun id hk => ⟨?_, ?_⟩⟩
    · exact same Registry.nodes_apart_models hk
    · exact same Registry.nodes_apart_replicas hk
    · exact same Registry.nodes_apart_models.symm hk
    · exact same Registry.models_apart_replicas hk
    · exact same Registry.nodes_apart_replicas.symm hk
    · exact same Registry.models_apart_replicas.symm hk

/-- A replica whose model has the empty id. -/
def unowned : Replica := { id := "r", modelId := "" }

/-- A store with that replica alone. -/
def unownedStore : Store := .volatile ⟨(replicas.write "r" unowned).apply .empty, false⟩

/-- A replica of the model with the empty id is listed, and asking for the replicas of that model is
refused. -/
theorem replicasOfModel_empty : ∃ rs, replicas.list unownedStore = .ok rs ∧ unowned ∈ rs ∧
    replicasOfModel unownedStore "" ≠ .ok (rs.filter fun r => r.modelId = "") ∧
    replicasOfModel unownedStore "" = .error (.emptyId "model") := by
  have hfits : replicas.laws.Fits unowned := Replica.fits_iff.2 Instant.optionInRange_none
  have hid : "r" ≠ "" := by decide
  have hshows := (Registry.Shows.empty replicas).write replicas.laws hfits hid rfl
  obtain ⟨rs, hrs, -, hmem⟩ := hshows.list (s := unownedStore) trivial
  refine ⟨rs, hrs, (hmem unowned).2 ?_, ?_, rfl⟩
  · exact Function.update_self _ _ _
  · rw [show replicasOfModel unownedStore "" = .error (.emptyId "model") from rfl]
    nofun

end ControlPlane
