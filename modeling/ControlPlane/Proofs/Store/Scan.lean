import ControlPlane.Proofs.Store.KeyMap
import ControlPlane.Proofs.Text.Order
import Mathlib.Data.List.Basic

/-!
# Key maps: keys with a common beginning

The keys that begin with a text stand next to each other in the order, from the text itself on. So
walking along the order finds all of them (`KeyMap.scan_eq_filter`), and whatever a store lists is
what testing all keys and asking for each of them comes to (`Store.entriesUnder_eq_filterKeys`).
-/

namespace ControlPlane

/-! ## Lists on which a property holds up to some place -/

section Upto

variable {α : Type} {P : α → Bool}

theorem takeWhile_eq_filter {l : List α} (h : l.Pairwise fun a b => P b = true → P a = true) :
    l.takeWhile P = l.filter P := by
  induction l with
  | nil => rfl
  | cons a l ih =>
    rw [List.pairwise_cons] at h
    by_cases ha : P a = true
    · rw [List.takeWhile_cons_of_pos ha, List.filter_cons_of_pos ha, ih h.2]
    · have hl : l.filter P = [] := by
        rw [List.filter_eq_nil_iff]
        intro b hb hp
        exact ha (h.1 b hb hp)
      rw [List.takeWhile_cons_of_neg ha, List.filter_cons_of_neg ha, hl]

theorem dropWhile_eq_filter {l : List α} (h : l.Pairwise fun a b => P b = true → P a = true) :
    l.dropWhile P = l.filter fun a => !P a := by
  induction l with
  | nil => rfl
  | cons a l ih =>
    rw [List.pairwise_cons] at h
    by_cases ha : P a = true
    · rw [List.dropWhile_cons_of_pos ha, List.filter_cons_of_neg (by simpa using ha), ih h.2]
    · have hl : (l.filter fun a => !P a) = l := by
        rw [List.filter_eq_self]
        intro b hb
        cases hp : P b with
        | false => rfl
        | true => exact absurd (h.1 b hb hp) ha
      rw [List.dropWhile_cons_of_neg ha, List.filter_cons_of_pos (by simpa using ha), hl]

end Upto

namespace KeyMap

variable {start k k' : String}

theorem beginsWith_iff : beginsWith start k = true ↔ start.toList <+: k.toList :=
  List.isPrefixOf_iff_prefix

theorem not_lt_of_beginsWith (h : beginsWith start k = true) : ¬k < start := by
  obtain ⟨s, hs⟩ := beginsWith_iff.1 h
  rw [String.lt_iff, ← hs]
  exact not_append_lt _ _

theorem beginsWith_of_lt (hlt : k < k') (h : beginsWith start k' = true) (hk : ¬k < start) :
    beginsWith start k = true := by
  obtain ⟨s, hs⟩ := beginsWith_iff.1 h
  rw [String.lt_iff, ← hs] at hlt
  exact beginsWith_iff.2 ((lt_or_prefix_of_lt_append hlt).resolve_left hk)

/-- The entries found along the order are all those whose keys begin with the text. -/
theorem scan_eq_filter (m : KeyMap) (start : String) :
    m.scan start = m.entries.filter fun e => beginsWith start e.1 := by
  have hbelow : m.entries.Pairwise fun a b =>
      decide (b.1 < start) = true → decide (a.1 < start) = true := by
    refine m.sorted.imp ?_
    intro a b hlt hb
    simp only [decide_eq_true_eq] at hb ⊢
    exact String.lt_trans hlt hb
  unfold scan
  rw [dropWhile_eq_filter hbelow, takeWhile_eq_filter]
  · rw [List.filter_filter]
    congr 1
    funext e
    by_cases hb : beginsWith start e.1 = true
    · have := not_lt_of_beginsWith hb
      simp [hb, this]
    · simp [hb]
  · have hsorted := m.sorted.filter fun e => !decide (e.1 < start)
    refine hsorted.imp_of_mem ?_
    intro a b ha _ hlt hb
    have ha := (List.mem_filter.1 ha).2
    exact beginsWith_of_lt hlt hb (by simpa using ha)

/-- Asking for those keys of a map that begin with a text brings back their entries. -/
theorem filterKeys_keys (m : KeyMap) (start : String) :
    filterKeys m.keys m.get? start = m.entries.filter fun e => beginsWith start e.1 := by
  have hget : ∀ e ∈ m.entries.filter fun e => beginsWith start e.1,
      ((fun key => (m.get? key).map fun value => (key, value)) ∘ Prod.fst) e = some e := by
    intro e he
    have hv : m.get? e.1 = some e.2 := get?_eq_some_iff.2 (List.mem_filter.1 he).1
    simp [hv]
  unfold filterKeys keys
  rw [List.filter_map, List.filterMap_map]
  exact (List.filterMap_congr hget).trans (List.filterMap_some)

theorem scan_eq_filterKeys (m : KeyMap) (start : String) :
    m.scan start = filterKeys m.keys m.get? start := by
  rw [scan_eq_filter, filterKeys_keys]

end KeyMap

/-- Walking along the order from a text on lists the same entries in the same order as testing every
key of the store and asking for its value. -/
theorem Store.entriesUnder_eq_filterKeys (s : Store) (start : String) :
    s.entriesUnder start = KeyMap.filterKeys s.keys s.get? start := by
  cases s with
  | volatile v => exact v.data.scan_eq_filterKeys start
  | masked v hidden => rfl
  | durable v => exact v.data.scan_eq_filterKeys start

end ControlPlane
