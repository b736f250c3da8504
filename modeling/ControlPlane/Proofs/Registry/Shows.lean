import ControlPlane.Proofs.Registry.Laws
import ControlPlane.Proofs.Store.Healthy
import ControlPlane.Proofs.Store.Scan
import Mathlib.Logic.Function.Basic

/-!
# Registries as finite maps

A map of keys shows a map of records if it holds exactly these under their keys, whatever else it
holds (`Registry.Shows`). Looking a record up and listing records then answer from the map of
records, and a change of one record is one of the map of records, which the other kinds do not
notice.
-/

namespace ControlPlane

/-! ## Stores that answer from their map -/

namespace Store

/-- Whether a store has a value for each key that it lists. -/
def Plain : Store → Prop
  | .volatile _ | .durable _ => True
  | .masked _ _ => False

variable {s s' : Store} {d d' : Disk}

theorem Plain.get? (h : s.Plain) (key : String) : s.get? key = s.data.get? key := by
  cases s with
  | volatile v | durable v => rfl
  | masked v hidden => exact h.elim

theorem Plain.entriesUnder (h : s.Plain) (start : String) :
    s.entriesUnder start = s.data.entries.filter fun e => KeyMap.beginsWith start e.1 := by
  cases s with
  | volatile v | durable v => exact KeyMap.scan_eq_filter _ _
  | masked v hidden => exact h.elim

theorem Plain.commit {c : Change} {e : Option StoreError} (h : s.Plain)
    (hc : s.commit d c = (e, s', d')) : s'.Plain := by
  cases s with
  | volatile v | durable v =>
    cases hc
    trivial
  | masked v hidden => exact h.elim

end Store

/-- Whether a store is open, answers from its map and suffers no fault. -/
structure Backing.Works (b : Backing) : Prop where
  plain : b.store.Plain
  healthy : b.store.Healthy b.disk

/-- A store that works makes every change that has a key and goes on working. -/
theorem Backing.Works.commit {b : Backing} (h : b.Works) {c : Change} (hk : c.key ≠ "") :
    ∃ b', b.commit c = (none, b') ∧ b'.Works ∧ b'.store.data = c.apply b.store.data := by
  obtain ⟨s, d, hc, hhealthy, hdata⟩ := Store.commit_of_healthy h.healthy hk
  refine ⟨⟨s, d⟩, ?_, ⟨h.plain.commit hc, hhealthy⟩, hdata⟩
  rw [Backing.commit, hc]

namespace Registry

/-! ## Keys of different kinds -/

/-- Whether no key of one registry is one of the other. -/
def Apart {α β : Type} (r : Registry α) (r' : Registry β) : Prop :=
  ∀ id id', r.key id ≠ r'.key id'

theorem Apart.symm {α β : Type} {r : Registry α} {r' : Registry β} (h : r.Apart r') :
    r'.Apart r :=
  fun id id' he => h id' id he.symm

theorem apart_of_prefix {α β : Type} {r : Registry α} {r' : Registry β}
    (h : ∀ cs, r'.keyStart.toList.isPrefixOf (r.keyStart.toList ++ cs) = false) :
    r.Apart r' := by
  intro id id' he
  have hb := r'.beginsWith_key id'
  rw [← he, KeyMap.beginsWith, key, String.toList_append, h] at hb
  cases hb

theorem nodes_apart_models : nodes.Apart models :=
  apart_of_prefix fun _ => rfl

theorem nodes_apart_replicas : nodes.Apart replicas :=
  apart_of_prefix fun _ => rfl

theorem models_apart_replicas : models.Apart replicas :=
  apart_of_prefix fun _ => rfl

/-! ## Keys of one kind -/

variable {α : Type} {r : Registry α}

/-- Keys are in the order of their ids. -/
theorem key_lt_iff {id id' : String} : r.key id < r.key id' ↔ id < id' := by
  rw [key, key, String.lt_iff, String.toList_append, String.toList_append,
    append_lt_append_iff Char.lt_irrefl, ← String.lt_iff]

theorem exists_of_beginsWith {k : String} (h : KeyMap.beginsWith r.keyStart k = true) :
    ∃ id, k = r.key id := by
  obtain ⟨cs, hcs⟩ := KeyMap.beginsWith_iff.1 h
  refine ⟨String.ofList cs, String.ext ?_⟩
  rw [key, String.toList_append, String.toList_ofList, hcs]

/-! ## Decisions -/

section Decisions

variable {id : String} {a : α}

/-- A record without an id, or with the one it is to be stored under, gets that one. -/
theorem stamp_of_matching (hid : id ≠ "") (ha : r.idOf a = "" ∨ r.idOf a = id) :
    r.stamp id a = .ok (r.withId id a) := by
  unfold stamp
  rw [requireId_of_ne hid]
  have hc : ¬(!(r.idOf a).isEmpty && r.idOf a != id) = true := by
    rcases ha with ha | ha <;> simp [ha]
  exact if_neg hc

/-- A record with another id is refused. -/
theorem stamp_of_mismatch (hid : id ≠ "") (ha : ¬(r.idOf a = "" ∨ r.idOf a = id)) :
    r.stamp id a = .error (.idMismatch r.kind id (r.idOf a)) := by
  unfold stamp
  rw [requireId_of_ne hid]
  obtain ⟨hne, hne'⟩ := not_or.1 ha
  have hc : (!(r.idOf a).isEmpty && r.idOf a != id) = true := by
    have he : (r.idOf a).isEmpty = false :=
      Bool.eq_false_iff.2 fun he => hne (String.isEmpty_iff.1 he)
    simp [he, hne']
  exact if_pos hc

theorem put_of_matching (hid : id ≠ "") (ha : r.idOf a = "" ∨ r.idOf a = id) :
    r.put id a = .ok (r.write id (r.withId id a)) := by
  rw [put, stamp_of_matching hid ha]
  rfl

theorem put_of_mismatch (hid : id ≠ "") (ha : ¬(r.idOf a = "" ∨ r.idOf a = id)) :
    r.put id a = .error (.idMismatch r.kind id (r.idOf a)) := by
  rw [put, stamp_of_mismatch hid ha]
  rfl

theorem remove_of_ne (hid : id ≠ "") : r.remove id = .ok (.delete (r.key id)) := by
  rw [remove, requireId_of_ne hid]
  rfl

end Decisions

/-! ## Maps of records -/

/-- Whether a map of keys holds the records of a map by id, each under its own id, and no other
record of the kind. -/
structure Shows (r : Registry α) (m : KeyMap) (f : String → Option α) : Prop where
  found : ∀ id, (m.get? (r.key id)).map r.codec.ofBytes = (f id).map .ok
  own : ∀ id a, f id = some a → id ≠ "" ∧ r.idOf a = id

namespace Shows

variable {m : KeyMap} {f : String → Option α} {s : Store} {id : String} {a : α}

theorem empty (r : Registry α) : r.Shows .empty fun _ => none where
  found _ := rfl
  own _ _ h := by cases h

theorem exists_of_some (h : r.Shows m f) (ha : f id = some a) :
    ∃ bs, m.get? (r.key id) = some bs ∧ r.codec.ofBytes bs = .ok a := by
  have hf := h.found id
  rw [ha] at hf
  exact Option.map_eq_some_iff.1 hf

/-! ### Looking -/

/-- Looking a record up finds what the map of records has. -/
theorem get (h : r.Shows s.data f) (hs : s.Plain) (hid : id ≠ "") : r.get s id = .ok (f id) := by
  have hf := h.found id
  rw [Registry.get, requireId_of_ne hid, hs.get?]
  cases hv : s.data.get? (r.key id) with
  | none =>
    rw [hv] at hf
    rw [Option.map_eq_none_iff.1 hf.symm]
    rfl
  | some bs =>
    rw [hv] at hf
    obtain ⟨a, ha, hbs⟩ := Option.map_eq_some_iff.1 hf.symm
    rw [ha]
    show (some <$> r.decode (r.key id) bs) = _
    rw [decode, ← hbs]
    rfl

theorem require_of_some (h : r.Shows s.data f) (hs : s.Plain) (ha : f id = some a) :
    r.require s id = .ok a := by
  rw [require, h.get hs (h.own id a ha).1, ha]
  rfl

theorem require_of_none (h : r.Shows s.data f) (hs : s.Plain) (hid : id ≠ "")
    (hn : f id = none) : r.require s id = .error (.notFound r.kind id) := by
  rw [require, h.get hs hid, hn]
  rfl

theorem holds (h : r.Shows m f) {e : String × Bytes} (he : e ∈ m.entries)
    (hb : KeyMap.beginsWith r.keyStart e.1 = true) :
    r.Holds (fun a => f (r.idOf a) = some a) e := by
  obtain ⟨id, hk⟩ := exists_of_beginsWith hb
  obtain ⟨k, bs⟩ := e
  obtain rfl : k = r.key id := hk
  have hf := h.found id
  rw [KeyMap.get?_eq_some_iff.2 he] at hf
  obtain ⟨a, ha, hbs⟩ := Option.map_eq_some_iff.1 hf.symm
  obtain ⟨hid, rfl⟩ := h.own id a ha
  exact ⟨a, hbs.symm, hid, rfl, ha⟩

/-- The list of the records has those of the map, in the order of their ids. -/
theorem list (h : r.Shows s.data f) (hs : s.Plain) : ∃ as, r.list s = .ok as ∧
    (as.Pairwise fun a b => r.idOf a < r.idOf b) ∧ ∀ a, a ∈ as ↔ f (r.idOf a) = some a := by
  have hes := hs.entriesUnder r.keyStart
  obtain ⟨as, has, hkeys, hp⟩ := decodeAll_spec (P := fun a => f (r.idOf a) = some a)
    (s.entriesUnder r.keyStart) fun e he => by
      rw [hes] at he
      obtain ⟨hm, hb⟩ := List.mem_filter.1 he
      exact h.holds hm hb
  refine ⟨as, has, ?_, ?_⟩
  · have hsorted : ((s.entriesUnder r.keyStart).map (·.1)).Pairwise (· < ·) := by
      rw [hes, List.pairwise_map]
      exact s.data.sorted.filter _
    rw [← hkeys, List.pairwise_map, List.pairwise_map] at hsorted
    exact hsorted.imp fun hlt => key_lt_iff.1 hlt
  · intro a
    refine ⟨hp a, ?_⟩
    intro ha
    obtain ⟨bs, hbs, -⟩ := h.exists_of_some ha
    have he : (r.key (r.idOf a), bs) ∈ s.entriesUnder r.keyStart := by
      rw [hes, List.mem_filter]
      exact ⟨KeyMap.mem_of_get? hbs, r.beginsWith_key _⟩
    have hk := List.mem_map_of_mem (f := (·.1)) he
    rw [← hkeys, List.map_map] at hk
    obtain ⟨b, hb, hkey⟩ := List.mem_map.1 hk
    have hid : r.idOf b = r.idOf a := key_inj hkey
    have hfb := hp b hb
    rw [hid, ha] at hfb
    exact Option.some.inj hfb ▸ hb

/-! ### Changing -/

/-- Writing a record puts it into the map of records as it will be read. -/
theorem write (h : r.Shows m f) (l : r.Laws) (hf : l.Fits a) (hid : id ≠ "")
    (ha : r.idOf a = id) :
    r.Shows ((r.write id a).apply m) (Function.update f id (some (l.codec.settle a))) where
  found id' := by
    show ((m.insert (r.key id) (r.codec.toBytes a)).get? (r.key id')).map _ = _
    rw [KeyMap.get?_insert]
    by_cases he : id' = id
    · subst he
      rw [if_pos rfl, Function.update_self, Option.map_some, l.codec.ofBytes_toBytes hf]
      rfl
    · rw [if_neg fun hk => he (key_inj hk), Function.update_of_ne he]
      exact h.found id'
  own id' b hb := by
    by_cases he : id' = id
    · subst he
      rw [Function.update_self] at hb
      obtain rfl := Option.some.inj hb
      rw [l.idOf_settle]
      exact ⟨hid, ha⟩
    · rw [Function.update_of_ne he] at hb
      exact h.own id' b hb

/-- Taking a record away takes it out of the map of records. -/
theorem delete (h : r.Shows m f) (id : String) :
    r.Shows (Change.apply m (.delete (r.key id))) (Function.update f id none) where
  found id' := by
    show ((m.erase (r.key id)).get? (r.key id')).map _ = _
    rw [KeyMap.get?_erase]
    by_cases he : id' = id
    · subst he
      rw [if_pos rfl, Function.update_self]
      rfl
    · rw [if_neg fun hk => he (key_inj hk), Function.update_of_ne he]
      exact h.found id'
  own id' b hb := by
    by_cases he : id' = id
    · subst he
      rw [Function.update_self] at hb
      cases hb
    · rw [Function.update_of_ne he] at hb
      exact h.own id' b hb

/-- A change of a key of another kind is not noticed. -/
theorem elsewhere {β : Type} {r' : Registry β} (h : r.Shows m f) (hr : r.Apart r') {c : Change}
    (hc : ∃ id, c.key = r'.key id) : r.Shows (c.apply m) f where
  found id := by
    obtain ⟨id', hk⟩ := hc
    rw [Change.get?_apply_of_ne (by rw [hk]; exact hr id id')]
    exact h.found id
  own := h.own

end Shows

end Registry

end ControlPlane
