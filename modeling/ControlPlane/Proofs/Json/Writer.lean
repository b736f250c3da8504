import ControlPlane.Proofs.Json.Printed

/-!
# Writing documents: one line

No control character stands in the text of a document (`Json.not_control_of_mem_render`), so the
text is a single line, whatever the strings in the document are.
-/

namespace ControlPlane

open Numeral

/-! ## Parts of documents -/

theorem Numeral.not_control_digit : ∀ d < 16, 0x20 ≤ (digit d).toNat := by decide

theorem Spelling.not_control_of_mem_writeChar {c d : Char} (h : d ∈ writeChar c) :
    0x20 ≤ d.toNat := by
  unfold writeChar at h
  split at h
  case h_8 =>
    split at h
    case isTrue hc =>
      simp only [List.mem_cons, List.not_mem_nil, or_false] at h
      rcases h with rfl | rfl | rfl | rfl | rfl | rfl
      · decide
      · decide
      · decide
      · decide
      · exact not_control_digit _ (by omega)
      · exact not_control_digit _ (by omega)
    case isFalse hc =>
      obtain rfl := List.mem_singleton.1 h
      omega
  all_goals
    simp only [List.mem_cons, List.not_mem_nil, or_false] at h
    rcases h with rfl | rfl <;> decide

theorem Spelling.not_control_of_mem_write {s : String} {d : Char} (h : d ∈ write s) :
    0x20 ≤ d.toNat := by
  unfold write at h
  rcases List.mem_append.1 h with h | h
  · rcases List.mem_cons.1 h with rfl | h
    · decide
    · obtain ⟨c, -, hc⟩ := List.mem_flatMap.1 h
      exact not_control_of_mem_writeChar hc
  · obtain rfl := List.mem_singleton.1 h
    decide

theorem Numeral.not_control_of_mem_map_digit {ds : List Nat} (hd : ∀ d ∈ ds, d < 10) {c : Char}
    (h : c ∈ ds.map digit) : 0x20 ≤ c.toNat := by
  obtain ⟨d, hm, rfl⟩ := List.mem_map.1 h
  exact not_control_digit d (by have := hd d hm; omega)

theorem Numeral.not_control_of_mem_decimal {n : Nat} {c : Char} (h : c ∈ decimal n) :
    0x20 ≤ c.toNat :=
  not_control_of_mem_map_digit (fun _ => digits_lt (by omega)) h

theorem Number.not_control_of_mem_render {n : Number} {c : Char} (h : c ∈ n.render) :
    0x20 ≤ c.toNat := by
  have hp := n.proper_parts
  rw [render_eq, Parts.unsigned] at h
  simp only [List.mem_append] at h
  rcases h with h | (h | h) | h
  · split at h
    · obtain rfl := List.mem_singleton.1 h
      decide
    · simp at h
  · exact not_control_of_mem_map_digit hp.whole_lt h
  · cases hf : n.parts.fraction with
    | none => simp [hf, Parts.fractionText] at h
    | some ds =>
      rw [hf, Parts.fractionText] at h
      rcases List.mem_cons.1 h with rfl | h
      · decide
      · exact not_control_of_mem_map_digit (hp.fraction_lt ds hf) h
  · cases he : n.parts.power with
    | none => simp [he, Parts.exponentText] at h
    | some e =>
      rw [he, Parts.exponentText] at h
      simp only [List.mem_append, List.mem_cons] at h
      rcases h with (rfl | h) | h
      · decide
      · split at h
        · obtain rfl := List.mem_singleton.1 h
          decide
        · simp at h
      · cases e with
        | ofNat m => exact not_control_of_mem_decimal h
        | negSucc m =>
          rcases List.mem_cons.1 h with rfl | h
          · decide
          · exact not_control_of_mem_decimal h

/-! ## Documents -/

namespace Json

mutual

/-- No control character stands in the text of a document. -/
theorem not_control_of_mem_render : ∀ {j : Json} {c : Char}, c ∈ j.render → 0x20 ≤ c.toNat
  | .null, c, h | .bool true, c, h | .bool false, c, h => by
    simp only [render, List.mem_cons, List.not_mem_nil, or_false] at h
    casesm* _ ∨ _ <;> subst c <;> decide
  | .number n, _, h => Number.not_control_of_mem_render (n := n) h
  | .string s, _, h => Spelling.not_control_of_mem_write (s := s) h
  | .array items, c, h => by
    simp only [render, List.mem_append, List.mem_cons, List.not_mem_nil, or_false] at h
    rcases h with (rfl | h) | rfl
    · decide
    · exact not_control_of_mem_renderItems h
    · decide
  | .object members, c, h => by
    simp only [render, List.mem_append, List.mem_cons, List.not_mem_nil, or_false] at h
    rcases h with (rfl | h) | rfl
    · decide
    · exact not_control_of_mem_renderMembers h
    · decide

theorem not_control_of_mem_renderItems : ∀ {js : List Json} {c : Char}, c ∈ renderItems js →
    0x20 ≤ c.toNat
  | [], _, h => by simp [renderItems] at h
  | [j], _, h => not_control_of_mem_render (j := j) h
  | j :: k :: ks, c, h => by
    simp only [renderItems, List.mem_append, List.mem_cons] at h
    rcases h with h | rfl | h
    · exact not_control_of_mem_render h
    · decide
    · exact not_control_of_mem_renderItems h

theorem not_control_of_mem_renderMembers : ∀ {ms : List (String × Json)} {c : Char},
    c ∈ renderMembers ms → 0x20 ≤ c.toNat
  | [], _, h => by simp [renderMembers] at h
  | [(name, j)], c, h => by
    simp only [renderMembers, List.mem_append, List.mem_cons] at h
    rcases h with h | rfl | h
    · exact Spelling.not_control_of_mem_write h
    · decide
    · exact not_control_of_mem_render h
  | (name, j) :: m :: ms, c, h => by
    simp only [renderMembers, List.mem_append, List.mem_cons] at h
    rcases h with (h | rfl | h) | rfl | h
    · exact Spelling.not_control_of_mem_write h
    · decide
    · exact not_control_of_mem_render h
    · decide
    · exact not_control_of_mem_renderMembers h

end

end Json

end ControlPlane
