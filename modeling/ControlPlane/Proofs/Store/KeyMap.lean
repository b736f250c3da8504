import ControlPlane.Store.Basic

/-!
# Key maps: what is found was there

What a store answers about a key or about keys with a common beginning are entries of its map, each
key at most once, also while keys are taken away (`Store.mem_of_get?`,
`Store.mem_of_mem_entriesUnder`, `Store.nodup_entriesUnder`).
-/

namespace ControlPlane

namespace KeyMap

theorem mem_of_get? {m : KeyMap} {key : String} {value : Bytes} (h : m.get? key = some value) :
    (key, value) ∈ m.entries := by
  obtain ⟨e, he, rfl⟩ := Option.map_eq_some_iff.1 h
  have hk : e.1 = key := by simpa using List.find?_some he
  rw [← hk]
  exact List.mem_of_find?_eq_some he

theorem mem_of_mem_insert {m : KeyMap} {key : String} {value : Bytes} {e : String × Bytes}
    (h : e ∈ (m.insert key value).entries) : e = (key, value) ∨ e ∈ m.entries :=
  mem_insertEntry h

theorem mem_of_mem_erase {m : KeyMap} {key : String} {e : String × Bytes}
    (h : e ∈ (m.erase key).entries) : e ∈ m.entries :=
  (List.mem_filter.1 h).1

theorem sublist_scan (m : KeyMap) (start : String) : (m.scan start).Sublist m.entries :=
  (List.takeWhile_sublist _).trans (List.dropWhile_sublist _)

theorem beginsWith_of_mem_scan {m : KeyMap} {start : String} {e : String × Bytes}
    (h : e ∈ m.scan start) : beginsWith start e.1 = true :=
  List.all_eq_true.1 List.all_takeWhile e h

theorem nodup_keys (m : KeyMap) : m.keys.Nodup := by
  have h : m.keys.Pairwise (· < ·) := List.pairwise_map.2 m.sorted
  refine h.imp ?_
  rintro a b hlt rfl
  exact String.lt_irrefl a hlt

/-! ## One key at a time -/

/-- An entry is what is found under its key. -/
theorem get?_eq_some_iff {m : KeyMap} {key : String} {value : Bytes} :
    m.get? key = some value ↔ (key, value) ∈ m.entries := by
  refine ⟨mem_of_get?, ?_⟩
  intro h
  obtain ⟨entries, sorted⟩ := m
  unfold get? lookup
  induction entries with
  | nil => cases h
  | cons e rest ih =>
    rw [List.pairwise_cons] at sorted
    rcases List.mem_cons.1 h with rfl | h
    · simp
    · have hne : e.1 ≠ key := by
        intro he
        have hlt := sorted.1 _ h
        rw [he] at hlt
        exact String.lt_irrefl key hlt
      rw [List.find?_cons_of_neg (by simpa using hne)]
      exact ih sorted.2 h

theorem lookup_insertEntry (key : String) (value : Bytes) (entries : List (String × Bytes))
    (k : String) : lookup k (insertEntry key value entries) =
      if k = key then some value else lookup k entries := by
  unfold lookup
  induction entries with
  | nil =>
    by_cases hk : k = key
    · simp [insertEntry, hk]
    · simp [insertEntry, hk, Ne.symm hk]
  | cons e rest ih =>
    unfold insertEntry
    by_cases hk : k = key
    · subst hk
      rw [if_pos rfl] at ih ⊢
      split
      · simp
      · split
        · simp
        · rename_i hne
          rw [List.find?_cons_of_neg (by simpa using Ne.symm hne), ih]
    · rw [if_neg hk] at ih ⊢
      have hnew : ((key, value).1 == k) = false := by simpa using Ne.symm hk
      split
      · rw [List.find?_cons_of_neg (by simp [hnew])]
      · split
        · rename_i heq
          rw [List.find?_cons_of_neg (by simp [hnew]),
            List.find?_cons_of_neg (by simpa [← heq] using Ne.symm hk)]
        · by_cases he : e.1 = k
          · rw [List.find?_cons_of_pos (by simpa using he),
              List.find?_cons_of_pos (by simpa using he)]
          · rw [List.find?_cons_of_neg (by simpa using he),
              List.find?_cons_of_neg (by simpa using he), ih]

/-- What is found after a key got a value. -/
theorem get?_insert (m : KeyMap) (key : String) (value : Bytes) (k : String) :
    (m.insert key value).get? k = if k = key then some value else m.get? k :=
  lookup_insertEntry key value m.entries k

/-- What is found after a key was taken out. -/
theorem get?_erase (m : KeyMap) (key k : String) :
    (m.erase key).get? k = if k = key then none else m.get? k := by
  unfold erase get? lookup
  rw [List.find?_filter]
  by_cases hk : k = key
  · subst hk
    rw [if_pos rfl, Option.map_eq_none_iff, List.find?_eq_none]
    intro e _
    simp
  · rw [if_neg hk]
    congr 2
    funext e
    by_cases he : e.1 = k
    · simp [he, hk]
    · simp [he]

/-! ## Key by key -/

theorem mem_filterKeys {keys : List String} {value? : String → Option Bytes} {start : String}
    {e : String × Bytes} : e ∈ filterKeys keys value? start ↔
      e.1 ∈ keys ∧ beginsWith start e.1 = true ∧ value? e.1 = some e.2 := by
  obtain ⟨key, value⟩ := e
  simp only [filterKeys, List.mem_filterMap, List.mem_filter, Option.map_eq_some_iff]
  constructor
  · rintro ⟨k, ⟨hk, hb⟩, v, hv, he⟩
    obtain ⟨rfl, rfl⟩ := Prod.mk.inj he
    exact ⟨hk, hb, hv⟩
  · rintro ⟨hk, hb, hv⟩
    exact ⟨key, ⟨hk, hb⟩, value, hv, rfl⟩

/-- Listing keys one by one passes some over and repeats none. -/
theorem sublist_filterKeys (keys : List String) (value? : String → Option Bytes) (start : String) :
    ((filterKeys keys value? start).map (·.1)).Sublist keys := by
  induction keys with
  | nil => exact .slnil
  | cons key keys ih =>
    unfold filterKeys at ih ⊢
    by_cases hb : beginsWith start key = true
    · rw [List.filter_cons_of_pos hb]
      cases hv : value? key with
      | none =>
        rw [List.filterMap_cons_none (by rw [hv]; rfl)]
        exact ih.cons key
      | some value =>
        rw [List.filterMap_cons_some (b := (key, value)) (by rw [hv]; rfl)]
        exact ih.cons_cons key
    · rw [List.filter_cons_of_neg hb]
      exact ih.cons key

end KeyMap

/-- A change leaves all other keys alone. -/
theorem Change.get?_apply_of_ne {c : Change} {k : String} (h : k ≠ c.key) (m : KeyMap) :
    (c.apply m).get? k = m.get? k := by
  cases c with
  | put key value => exact (m.get?_insert key value k).trans (if_neg h)
  | delete key => exact (m.get?_erase key k).trans (if_neg h)

namespace Store

theorem mem_of_get? {s : Store} {key : String} {value : Bytes} (h : s.get? key = some value) :
    (key, value) ∈ s.data.entries := by
  cases s with
  | volatile s => exact KeyMap.mem_of_get? h
  | masked s hidden =>
    rw [get?] at h
    split at h
    · cases h
    · exact KeyMap.mem_of_get? h
  | durable s => exact KeyMap.mem_of_get? h

theorem mem_of_mem_entriesUnder {s : Store} {start : String} {e : String × Bytes}
    (h : e ∈ s.entriesUnder start) :
    e ∈ s.data.entries ∧ KeyMap.beginsWith start e.1 = true := by
  cases s with
  | volatile s => exact ⟨(s.data.sublist_scan start).subset h, KeyMap.beginsWith_of_mem_scan h⟩
  | masked s hidden =>
    obtain ⟨-, hb, hv⟩ := KeyMap.mem_filterKeys.1 h
    exact ⟨mem_of_get? hv, hb⟩
  | durable s => exact ⟨(s.data.sublist_scan start).subset h, KeyMap.beginsWith_of_mem_scan h⟩

theorem nodup_entriesUnder (s : Store) (start : String) :
    ((s.entriesUnder start).map (·.1)).Nodup := by
  cases s with
  | volatile s => exact s.data.nodup_keys.sublist ((s.data.sublist_scan start).map _)
  | masked s hidden => exact s.data.nodup_keys.sublist (KeyMap.sublist_filterKeys _ _ _)
  | durable s => exact s.data.nodup_keys.sublist ((s.data.sublist_scan start).map _)

end Store

end ControlPlane
