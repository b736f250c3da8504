import ControlPlane.Number.Shortest
import ControlPlane.Proofs.Number.Double
import ControlPlane.Proofs.Text.Numeral
import Mathlib.Data.List.TakeWhile

/-!
# Shortest decimal notation: how far it is from the number

The decimal that `Double.shortest` finds has at least one digit, none of them a zero at its front,
and fewer than fit 64 bits; and it is at most half a unit above the number
(`Double.shortest_spec`). Nothing here asks whether it is the shortest or the nearest one.
-/

namespace ControlPlane.Double

open Numeral

variable {x : Double}

/-! ## The interval of a number -/

theorem zpow_ten_pos (k : Int) : (0 : ℚ) < 10 ^ k := by positivity

/-- A power with a whole exponent as a quotient of two with natural ones. -/
theorem pow_toNat {b : ℚ} (hb : b ≠ 0) (u : Int) : b ^ u.toNat = b ^ u * b ^ (-u).toNat := by
  rw [← zpow_natCast, ← zpow_natCast, ← zpow_add₀ hb]
  congr 1
  omega

/-- The number by which `onGrid` makes two numbers whole. -/
def grid (u k : Int) : ℚ :=
  2 ^ (-u).toNat * 10 ^ (-k).toNat

theorem grid_pos (u k : Int) : 0 < grid u k := by
  unfold grid
  positivity

theorem onGrid_fst (a : Nat) (u : Int) (c : Nat) (k : Int) :
    ((onGrid a u c k).1 : ℚ) = scaled a u * grid u k := by
  simp only [onGrid, Nat.pow_eq]
  push_cast
  rw [pow_toNat two_ne_zero u, scaled, grid]
  ring

theorem onGrid_snd (a : Nat) (u : Int) (c : Nat) (k : Int) :
    ((onGrid a u c k).2 : ℚ) = c * 10 ^ k * grid u k := by
  simp only [onGrid, Nat.pow_eq]
  push_cast
  rw [pow_toNat (by norm_num) k, grid]
  ring

/-- What is read back as a number is at most half a unit above it. -/
theorem le_of_covers {c : Nat} {k : Int} (h : x.covers c k = true) :
    (c : ℚ) * 10 ^ k ≤ x.magnitude + 2 ^ (x.exponent - 1) := by
  have hle : (onGrid (4 * x.mantissa + 2) (x.exponent - 2) c k).2 ≤
      (onGrid (4 * x.mantissa + 2) (x.exponent - 2) c k).1 := by
    unfold covers at h
    dsimp only at h
    split at h
    · simp only [Bool.and_eq_true, decide_eq_true_eq] at h
      exact h.2
    · simp only [Bool.and_eq_true, decide_eq_true_eq] at h
      exact h.2.le
  have hq : ((onGrid (4 * x.mantissa + 2) (x.exponent - 2) c k).2 : ℚ) ≤
      (onGrid (4 * x.mantissa + 2) (x.exponent - 2) c k).1 := by exact_mod_cast hle
  rw [onGrid_fst, onGrid_snd] at hq
  have hs : scaled (4 * x.mantissa + 2) (x.exponent - 2) =
      x.magnitude + 2 ^ (x.exponent - 1) := by
    rw [magnitude, scaled, scaled, zpow_sub₀ two_ne_zero, zpow_sub_one₀ two_ne_zero]
    push_cast
    ring
  rw [← hs]
  exact le_of_mul_le_mul_right hq (grid_pos _ _)

theorem floorAt_bounds (x : Double) (k : Int) :
    (x.floorAt k : ℚ) * 10 ^ k ≤ x.magnitude ∧ x.magnitude < (x.floorAt k + 1) * 10 ^ k := by
  have hg := grid_pos x.exponent k
  have hv := onGrid_fst x.mantissa x.exponent 1 k
  have hu := onGrid_snd x.mantissa x.exponent 1 k
  rw [Nat.cast_one, one_mul] at hu
  have hd : (0 : ℚ) < 10 ^ k * grid x.exponent k := mul_pos (zpow_ten_pos k) hg
  have hd' : 0 < (onGrid x.mantissa x.exponent 1 k).2 := by
    rw [← hu] at hd
    exact_mod_cast hd
  have hf : x.floorAt k =
      (onGrid x.mantissa x.exponent 1 k).1 / (onGrid x.mantissa x.exponent 1 k).2 := rfl
  constructor
  · have h : (x.floorAt k : ℚ) * (onGrid x.mantissa x.exponent 1 k).2 ≤
        (onGrid x.mantissa x.exponent 1 k).1 := by
      rw [hf]
      exact_mod_cast Nat.div_mul_le_self _ _
    rw [hv, hu, ← mul_assoc] at h
    exact le_of_mul_le_mul_right h hg
  · have h : ((onGrid x.mantissa x.exponent 1 k).1 : ℚ) <
        (x.floorAt k + 1) * (onGrid x.mantissa x.exponent 1 k).2 := by
      rw [hf]
      exact_mod_cast Nat.lt_mul_of_div_lt (Nat.lt_succ_self _) hd'
    rw [hv, hu, ← mul_assoc] at h
    exact lt_of_mul_lt_mul_right h hg.le

/-! ## The powers of ten that are tried -/

theorem ratio_spec (x : Double) :
    0 < x.ratio.2 ∧ (x.ratio.1 : ℚ) / x.ratio.2 = x.magnitude := by
  obtain ⟨hp, hv⟩ := inUnits_spec x.mantissa one_pos (-x.exponent)
  refine ⟨hp, ?_⟩
  rw [ratio, hv, Nat.cast_one, div_one, zpow_neg, div_inv_eq_mul]
  rfl

/-- The number of digits of two numbers bounds their quotient. -/
theorem length_digits_bounds {n d : Nat} (hn : 0 < n) (hd : 0 < d) :
    (10 : ℚ) ^ (((digits 10 n).length : Int) - (digits 10 d).length - 1) ≤ n / d ∧
      (n : ℚ) / d < 10 ^ (((digits 10 n).length : Int) - (digits 10 d).length + 1) := by
  have hd' : (0 : ℚ) < d := by exact_mod_cast hd
  have bounds : ∀ m : Nat, 0 < m → (10 : ℚ) ^ (((digits 10 m).length : Int) - 1) ≤ m ∧
      (m : ℚ) < 10 ^ ((digits 10 m).length : Int) := by
    intro m hm
    have hl : 0 < (digits 10 m).length := List.length_pos_iff.2 (digits_ne_nil 10 m)
    constructor
    · rw [show ((digits 10 m).length : Int) - 1 = ((digits 10 m).length - 1 : Nat) by omega,
        zpow_natCast]
      exact_mod_cast pow_length_le (by omega) hm
    · rw [zpow_natCast]
      exact_mod_cast lt_pow_length m (by omega)
  obtain ⟨hn₁, hn₂⟩ := bounds n hn
  obtain ⟨hd₁, hd₂⟩ := bounds d hd
  have ten : (10 : ℚ) ≠ 0 := by norm_num
  constructor
  · rw [le_div_iff₀ hd']
    calc (10 : ℚ) ^ (((digits 10 n).length : Int) - (digits 10 d).length - 1) * d
        ≤ 10 ^ (((digits 10 n).length : Int) - (digits 10 d).length - 1) *
            10 ^ ((digits 10 d).length : Int) :=
          mul_le_mul_of_nonneg_left hd₂.le (zpow_ten_pos _).le
      _ = 10 ^ (((digits 10 n).length : Int) - 1) := by
          rw [← zpow_add₀ ten]
          congr 1
          ring
      _ ≤ n := hn₁
  · rw [div_lt_iff₀ hd']
    calc (n : ℚ) < 10 ^ ((digits 10 n).length : Int) := hn₂
      _ = 10 ^ (((digits 10 n).length : Int) - (digits 10 d).length + 1) *
            10 ^ (((digits 10 d).length : Int) - 1) := by
          rw [← zpow_add₀ ten]
          congr 1
          ring
      _ ≤ 10 ^ (((digits 10 n).length : Int) - (digits 10 d).length + 1) * d :=
          mul_le_mul_of_nonneg_left hd₁ (zpow_ten_pos _).le

/-- A number lies between the power of ten that belongs to it and the next one. -/
theorem decimalExponent_bounds (hx : x.mantissa ≠ 0) :
    (10 : ℚ) ^ x.decimalExponent ≤ x.magnitude ∧ x.magnitude < 10 ^ (x.decimalExponent + 1) := by
  obtain ⟨hp, hv⟩ := ratio_spec x
  have hm : 0 < x.magnitude := by
    have : (0 : ℚ) < x.mantissa := by exact_mod_cast Nat.pos_of_ne_zero hx
    exact mul_pos this (zpow_two_pos _)
  have hn : 0 < x.ratio.1 := by
    rcases Nat.eq_zero_or_pos x.ratio.1 with h | h
    · rw [h, Nat.cast_zero, zero_div] at hv
      exact absurd hv hm.ne
    · exact h
  obtain ⟨h₁, h₂⟩ := length_digits_bounds hn hp
  rw [hv] at h₁ h₂
  unfold decimalExponent
  dsimp only
  set e : Int := ((digits 10 x.ratio.1).length : Int) - (digits 10 x.ratio.2).length
  obtain ⟨hf, hf'⟩ := floorAt_bounds x e
  split
  · rename_i h
    rw [h, Nat.cast_zero, zero_add, one_mul] at hf'
    exact ⟨h₁, by rwa [Int.sub_add_cancel]⟩
  · rename_i h
    have hone : (1 : ℚ) ≤ x.floorAt e := by exact_mod_cast Nat.one_le_iff_ne_zero.2 h
    have hle := mul_le_mul_of_nonneg_right hone (zpow_ten_pos e).le
    exact ⟨by linarith, h₂⟩

theorem onPower?_some {c : Nat} {k : Int} (h : x.onPower? k = some c) :
    c = x.floorAt k ∨ c = x.floorAt k + 1 ∧ x.covers c k = true := by
  unfold onPower? at h
  dsimp only at h
  split at h
  · rename_i h₁ h₂
    rw [Option.some.injEq] at h
    split at h
    · exact .inr ⟨h.symm, h ▸ h₂⟩
    · exact .inl h.symm
  · rw [Option.some.injEq] at h
    exact .inl h.symm
  · rename_i h₁ h₂
    rw [Option.some.injEq] at h
    exact .inr ⟨h.symm, h ▸ h₂⟩
  · simp at h

theorem firstPower_spec (x : Double) (steps : Nat) (k₀ : Int) {c : Nat} {k : Int}
    (h : x.firstPower steps k₀ = (c, k)) :
    k ≤ k₀ ∧ k₀ - steps ≤ k ∧
      (c = x.floorAt k ∨ c = x.floorAt k + 1 ∧ x.covers c k = true) := by
  induction steps generalizing k₀ with
  | zero =>
    obtain ⟨rfl, rfl⟩ : x.floorAt k₀ = c ∧ k₀ = k := by simpa [firstPower] using h
    exact ⟨le_refl _, by simp, .inl rfl⟩
  | succ steps ih =>
    unfold firstPower at h
    split at h
    · rename_i d hd
      obtain ⟨rfl, rfl⟩ : d = c ∧ k₀ = k := by simpa using h
      exact ⟨le_refl _, by omega, onPower?_some hd⟩
    · obtain ⟨h₁, h₂, h₃⟩ := ih (k₀ - 1) h
      exact ⟨by omega, by omega, h₃⟩

/-- The multiplier that is found is not zero, has at most eighteen digits, or is the first of more,
and its multiple is at most half a unit above the number. -/
theorem firstPower_bounds (hx : x.mantissa ≠ 0) {c : Nat} {k : Int}
    (h : x.firstPower 17 x.decimalExponent = (c, k)) :
    0 < c ∧ c ≤ 10 ^ 18 ∧ (c : ℚ) * 10 ^ k ≤ x.magnitude + 2 ^ (x.exponent - 1) := by
  obtain ⟨hk, hk', hc⟩ := firstPower_spec x 17 _ h
  obtain ⟨hlow, hhigh⟩ := decimalExponent_bounds hx
  obtain ⟨hf, hf'⟩ := floorAt_bounds x k
  have hpos : 0 < x.floorAt k := by
    rcases Nat.eq_zero_or_pos (x.floorAt k) with h₀ | h₀
    · rw [h₀, Nat.cast_zero, zero_add, one_mul] at hf'
      have : (10 : ℚ) ^ k ≤ 10 ^ x.decimalExponent := zpow_le_zpow_right₀ (by norm_num) hk
      linarith
    · exact h₀
  have hlt : x.floorAt k < 10 ^ 18 := by
    have hmul : (x.floorAt k : ℚ) * 10 ^ k < 10 ^ (18 : Int) * 10 ^ k :=
      calc (x.floorAt k : ℚ) * 10 ^ k ≤ x.magnitude := hf
        _ < 10 ^ (x.decimalExponent + 1) := hhigh
        _ ≤ 10 ^ ((18 : Int) + k) := zpow_le_zpow_right₀ (by norm_num) (by omega)
        _ = 10 ^ (18 : Int) * 10 ^ k := zpow_add₀ (by norm_num) _ _
    have := lt_of_mul_lt_mul_right hmul (zpow_ten_pos k).le
    exact_mod_cast this
  rcases hc with rfl | ⟨rfl, hcov⟩
  · exact ⟨hpos, hlt.le, hf.trans (le_add_of_nonneg_right (zpow_two_pos _).le)⟩
  · exact ⟨Nat.succ_pos _, hlt, le_of_covers hcov⟩

/-! ## Digits -/

/-- Zeros at the end of digits are a power of ten. -/
theorem dropZeros_spec (ds : List Nat) :
    ∃ z, ds = dropZeros ds ++ List.replicate z 0 := by
  refine ⟨(ds.reverse.takeWhile (· = 0)).length, ?_⟩
  have hz : ds.reverse.takeWhile (· = 0) =
      List.replicate (ds.reverse.takeWhile (· = 0)).length 0 :=
    List.eq_replicate_iff.2 ⟨rfl, fun d hd => by simpa using List.mem_takeWhile_imp hd⟩
  have h := List.takeWhile_append_dropWhile (p := (· = 0)) (l := ds.reverse)
  have h' := congrArg List.reverse h
  rw [List.reverse_append, List.reverse_reverse] at h'
  rw [dropZeros, ← List.reverse_replicate, ← hz]
  exact h'.symm

/-- What `Double.shortest` finds: digits of which the first is not zero and that fit 64 bits; the
number they stand for is at most half a unit above the number that is written. -/
theorem shortest_spec (hx : x.mantissa ≠ 0) :
    x.shortest.digits ≠ [] ∧ (∀ d ∈ x.shortest.digits, d < 10) ∧
      x.shortest.digits.head? ≠ some 0 ∧ 0 < ofDigits 10 x.shortest.digits ∧
      ofDigits 10 x.shortest.digits ≤ 10 ^ 18 ∧
      (ofDigits 10 x.shortest.digits : ℚ) *
          10 ^ (x.shortest.point - x.shortest.digits.length) ≤
        x.magnitude + 2 ^ (x.exponent - 1) := by
  obtain ⟨hc₀, hc₁, hle⟩ := firstPower_bounds hx (Prod.mk.eta.symm)
  have hs : x.shortest = ⟨dropZeros (digits 10 (x.firstPower 17 x.decimalExponent).1),
      (x.firstPower 17 x.decimalExponent).2 +
        (digits 10 (x.firstPower 17 x.decimalExponent).1).length⟩ := rfl
  rw [hs]
  dsimp only
  generalize x.firstPower 17 x.decimalExponent = f at hc₀ hc₁ hle
  obtain ⟨c, k⟩ := f
  dsimp only at hc₀ hc₁ hle ⊢
  obtain ⟨z, hz⟩ := dropZeros_spec (digits 10 c)
  have hd : ∀ d ∈ digits 10 c, d < 10 := fun d hd => digits_lt (by omega) hd
  have hh : (digits 10 c).head? ≠ some 0 := digits_head? (by omega) hc₀
  have hv : ofDigits 10 (digits 10 c) = c := ofDigits_digits c (by omega)
  have hl : (digits 10 c).length = (dropZeros (digits 10 c)).length + z := by
    conv_lhs => rw [hz]
    rw [List.length_append, List.length_replicate]
  rw [hz, ofDigits_append_replicate] at hv
  generalize dropZeros (digits 10 c) = ds at hz hv hl
  have hne : ds ≠ [] := by
    rintro rfl
    rw [← hv] at hc₀
    simp [ofDigits] at hc₀
  have hs₀ : 0 < ofDigits 10 ds := Nat.pos_of_mul_pos_right (hv ▸ hc₀)
  refine ⟨hne, fun d hm => hd d (hz ▸ List.mem_append_left _ hm), ?_, hs₀, ?_, ?_⟩
  · rw [hz, List.head?_append_of_ne_nil _ hne] at hh
    exact hh
  · calc ofDigits 10 ds ≤ ofDigits 10 ds * 10 ^ z := Nat.le_mul_of_pos_right _ (by positivity)
      _ ≤ 10 ^ 18 := hv ▸ hc₁
  · have hk : k + (digits 10 c).length - (ds.length : Int) = k + z := by
      rw [hl]
      push_cast
      ring
    rw [hk, zpow_add₀ (by norm_num), zpow_natCast]
    calc (ofDigits 10 ds : ℚ) * (10 ^ k * 10 ^ z) = (ofDigits 10 ds * 10 ^ z : Nat) * 10 ^ k := by
          push_cast
          ring
      _ = c * 10 ^ k := by rw [hv]
      _ ≤ x.magnitude + 2 ^ (x.exponent - 1) := hle

end ControlPlane.Double
