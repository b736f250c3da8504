import ControlPlane.Text.Utf8

/-!
# The order of texts

Texts are in the order of their characters, which is that of their bytes (`Utf8.encode_lt_iff`). A
text is not below its beginnings, and what lies in between has the same beginning.
-/

namespace ControlPlane

/-! ## Texts and their beginnings -/

section Beginnings

variable {p k s : List Char}

theorem not_append_lt (p s : List Char) : ¬p ++ s < p := by
  induction p with
  | nil => exact List.not_lt_nil s
  | cons c p ih =>
    intro h
    rcases List.cons_lt_cons_iff.1 h with h | ⟨-, h⟩
    · exact Char.lt_irrefl c h
    · exact ih h

/-- What is below a text that begins with another one is below that, or begins with it too. -/
theorem lt_or_prefix_of_lt_append (h : k < p ++ s) : k < p ∨ p <+: k := by
  induction p generalizing k with
  | nil => exact .inr List.nil_prefix
  | cons c p ih =>
    cases k with
    | nil => exact .inl (List.nil_lt_cons c p)
    | cons d k =>
      rcases List.cons_lt_cons_iff.1 h with hlt | ⟨rfl, hlt⟩
      · exact .inl (List.cons_lt_cons_iff.2 (.inl hlt))
      · rcases ih hlt with hlt | hp
        · exact .inl (List.cons_lt_cons_iff.2 (.inr ⟨rfl, hlt⟩))
        · exact .inr (List.cons_prefix_cons.2 ⟨rfl, hp⟩)

end Beginnings

theorem append_lt_append_iff {α : Type} [LT α] (h : ∀ a : α, ¬a < a) {p k s : List α} :
    p ++ k < p ++ s ↔ k < s := by
  induction p with
  | nil => rfl
  | cons a p ih =>
    rw [List.cons_append, List.cons_append, List.cons_lt_cons_iff, ih]
    simp [h a]

/-! ## Texts and their bytes -/

namespace Utf8

/-- The bytes of two characters are in the order of these, whatever follows. -/
theorem encodeChar_append_lt {c d : Char} (h : c.toNat < d.toNat) (xs ys : Bytes) :
    encodeChar c ++ xs < encodeChar d ++ ys := by
  have hd : d.toNat < 0x110000 := by
    have hvalid := d.valid
    simp only [UInt32.isValidChar, Nat.isValidChar] at hvalid
    unfold Char.toNat
    omega
  unfold encodeChar
  generalize c.toNat = m at *
  generalize d.toNat = n at *
  dsimp only
  -- One case for each pair of lengths; the first byte tells unless these are equal.
  repeat' split
  all_goals
    simp only [List.cons_append, List.nil_append, List.cons_lt_cons_iff, UInt8.lt_iff_toNat_lt,
      UInt8.toNat_ofNat', ← UInt8.toNat_inj]
    simp (disch := omega) only [Nat.mod_eq_of_lt, Nat.reducePow]
    omega

theorem encodeChar_ne_nil (c : Char) : encodeChar c ≠ [] := by
  unfold encodeChar
  dsimp only
  repeat' split
  all_goals exact List.cons_ne_nil _ _

/-- Texts are in the order of their bytes. -/
theorem encode_lt_iff {cs ds : List Char} : encode cs < encode ds ↔ cs < ds := by
  induction cs generalizing ds with
  | nil =>
    cases ds with
    | nil => exact iff_of_false (List.not_lt_nil _) (List.not_lt_nil _)
    | cons d ds =>
      obtain ⟨b, bs, hb⟩ := List.exists_cons_of_ne_nil (encodeChar_ne_nil d)
      have hlt : encode [] < encodeChar d ++ encode ds := by
        rw [hb]
        exact List.nil_lt_cons _ _
      exact iff_of_true hlt (List.nil_lt_cons _ _)
  | cons c cs ih =>
    cases ds with
    | nil => exact iff_of_false (List.not_lt_nil _) (List.not_lt_nil _)
    | cons d ds =>
      rw [List.cons_lt_cons_iff]
      show encodeChar c ++ encode cs < encodeChar d ++ encode ds ↔ _
      rcases Nat.lt_trichotomy c.toNat d.toNat with hlt | heq | hgt
      · exact iff_of_true (encodeChar_append_lt hlt _ _) (.inl hlt)
      · obtain rfl := Char.toNat_inj.1 heq
        rw [append_lt_append_iff UInt8.lt_irrefl, ih]
        simp
      · refine iff_of_false (fun h => List.lt_asymm h (encodeChar_append_lt hgt _ _)) ?_
        rintro (h | ⟨rfl, -⟩)
        · exact Nat.lt_asymm hgt h
        · exact Nat.lt_irrefl _ hgt

end Utf8

/-- Strings are in the order of their bytes. -/
theorem utf8_lt_iff {a b : String} : utf8 a < utf8 b ↔ a < b := by
  rw [String.lt_iff]
  exact Utf8.encode_lt_iff

end ControlPlane
