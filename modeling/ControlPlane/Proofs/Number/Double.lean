import ControlPlane.Number.Double
import Mathlib.Algebra.Order.Field.Power
import Mathlib.Data.Rat.Cast.Order
import Mathlib.Tactic.FieldSimp
import Mathlib.Tactic.Linarith
import Mathlib.Tactic.NormNum
import Mathlib.Tactic.Positivity
import Mathlib.Tactic.Ring

/-!
# Floating-point numbers: bounds of the rounding

What `Double.nearest?` finds is at most half a unit away from the quotient (`Double.nearest?_le`),
and there is something to find below half a unit past the greatest number
(`Double.nearest?_isSome`). Numbers below `2 ^ 53` are kept as they are (`Double.magnitude_ofNat`).
-/

namespace ControlPlane.Double

/-! ## Magnitudes -/

/-- The number `mantissa · 2 ^ exponent`. -/
def scaled (m : Nat) (e : Int) : ℚ :=
  m * 2 ^ e

/-- The magnitude of a number. -/
def magnitude (x : Double) : ℚ :=
  scaled x.mantissa x.exponent

theorem beyondMantissa_eq : (beyondMantissa : ℚ) = 2 ^ (53 : Int) := by norm_num [beyondMantissa]

/-- Half a unit past the greatest number. -/
def limit : ℚ :=
  2 ^ (1024 : Int) - 2 ^ (970 : Int)

/-- Whether mantissa and exponent are those of a finite number. -/
structure Finite (x : Double) : Prop where
  mantissa_lt : x.mantissa < beyondMantissa
  least_le : leastExponent ≤ x.exponent
  le_greatest : x.exponent ≤ greatestExponent

theorem magnitude_nonneg (x : Double) : 0 ≤ x.magnitude := by
  unfold magnitude scaled
  positivity

theorem zpow_two_pos (e : Int) : (0 : ℚ) < 2 ^ e := by positivity

/-! ## The steps of the rounding -/

/-- A quotient is rounded up by at most a half. -/
theorem roundDiv_mul_le (n : Nat) {d : Nat} (hd : 0 < d) :
    2 * (roundDiv n d * d) ≤ 2 * n + d := by
  have hn : n = n / d * d + n % d := by rw [Nat.mul_comm]; exact (Nat.div_add_mod n d).symm
  have hr : n % d < d := Nat.mod_lt _ hd
  have hq : n / d % 2 = 0 ∨ n / d % 2 = 1 := by omega
  unfold roundDiv
  dsimp only
  split
  · omega
  · split
    · rw [Nat.add_mul]
      omega
    · rw [Nat.add_mul]
      rcases hq with hq | hq <;> rw [hq] <;> omega

theorem roundDiv_le {n d : Nat} (hd : 0 < d) : (roundDiv n d : ℚ) ≤ n / d + 1 / 2 := by
  have hd' : (0 : ℚ) < d := by exact_mod_cast hd
  have h : 2 * ((roundDiv n d : ℚ) * d) ≤ 2 * n + d := by exact_mod_cast roundDiv_mul_le n hd
  have hq : (n : ℚ) / d * d = n := div_mul_cancel₀ _ hd'.ne'
  refine le_of_mul_le_mul_right ?_ hd'
  rw [add_mul, hq]
  linarith

theorem div_le_roundDiv (n d : Nat) : n / d ≤ roundDiv n d := by
  unfold roundDiv
  dsimp only
  split
  · exact le_rfl
  · split <;> exact Nat.le_add_right _ _

/-- A whole number is not rounded. -/
theorem roundDiv_one (n : Nat) : roundDiv n 1 = n := by
  simp only [roundDiv, Nat.div_one, Nat.mod_one]
  rw [if_pos (by decide)]

/-- Units change the two numbers and not what they stand for. -/
theorem inUnits_spec (num : Nat) {den : Nat} (hd : 0 < den) (e : Int) :
    0 < (inUnits num den e).2 ∧
      ((inUnits num den e).1 : ℚ) / (inUnits num den e).2 = num / den / 2 ^ e := by
  have hd' : (den : ℚ) ≠ 0 := by exact_mod_cast hd.ne'
  unfold inUnits
  split
  · rename_i he
    have hp : (2 : ℚ) ^ e = 2 ^ e.toNat := by
      rw [← zpow_natCast, Int.toNat_of_nonneg he]
    refine ⟨Nat.mul_pos hd (Nat.pow_pos (by omega)), ?_⟩
    push_cast [Nat.pow_eq]
    rw [hp, div_div]
  · rename_i he
    have hp : (2 : ℚ) ^ e = (2 ^ (-e).toNat)⁻¹ := by
      rw [← zpow_natCast, Int.toNat_of_nonneg (by omega), zpow_neg, inv_inv]
    refine ⟨hd, ?_⟩
    push_cast [Nat.pow_eq]
    rw [hp, div_inv_eq_mul, div_mul_eq_mul_div]

/-- The bounds that the leading bits of two numbers set to their quotient. -/
theorem log2_bounds {num den : Nat} (hn : num ≠ 0) (hd : 0 < den) :
    (2 : ℚ) ^ ((num.log2 : Int) - den.log2 - 1) < num / den ∧
      (num : ℚ) / den < 2 ^ ((num.log2 : Int) - den.log2 + 1) := by
  have hd' : (0 : ℚ) < den := by exact_mod_cast hd
  have h₁ : (2 : ℚ) ^ (num.log2 : Int) ≤ num := by
    rw [zpow_natCast]
    exact_mod_cast Nat.log2_self_le hn
  have h₂ : (num : ℚ) < 2 ^ ((num.log2 : Int) + 1) := by
    have h : (num : ℚ) < 2 ^ (num.log2 + 1) := by exact_mod_cast Nat.lt_log2_self
    rwa [← zpow_natCast, Nat.cast_succ] at h
  have h₃ : (2 : ℚ) ^ (den.log2 : Int) ≤ den := by
    rw [zpow_natCast]
    exact_mod_cast Nat.log2_self_le hd.ne'
  have h₄ : (den : ℚ) < 2 ^ ((den.log2 : Int) + 1) := by
    have h : (den : ℚ) < 2 ^ (den.log2 + 1) := by exact_mod_cast Nat.lt_log2_self
    rwa [← zpow_natCast, Nat.cast_succ] at h
  constructor
  · rw [lt_div_iff₀ hd']
    calc (2 : ℚ) ^ ((num.log2 : Int) - den.log2 - 1) * den
        < 2 ^ ((num.log2 : Int) - den.log2 - 1) * 2 ^ ((den.log2 : Int) + 1) :=
          mul_lt_mul_of_pos_left h₄ (zpow_two_pos _)
      _ = 2 ^ (num.log2 : Int) := by
          rw [← zpow_add₀ two_ne_zero]
          congr 1
          ring
      _ ≤ num := h₁
  · rw [div_lt_iff₀ hd']
    calc (num : ℚ) < 2 ^ ((num.log2 : Int) + 1) := h₂
      _ = 2 ^ ((num.log2 : Int) - den.log2 + 1) * 2 ^ (den.log2 : Int) := by
          rw [← zpow_add₀ two_ne_zero]
          congr 1
          ring
      _ ≤ 2 ^ ((num.log2 : Int) - den.log2 + 1) * den :=
          mul_le_mul_of_nonneg_left h₃ (zpow_two_pos _).le

/-- The exponent that `nearest?` chooses, before the least one is applied: the one for which the
quotient has 53 bits. -/
def chosenExponent (num den : Nat) : Int :=
  let low : Int := (num.log2 : Int) - den.log2 - 53
  let (n, d) := inUnits num den low
  if n / d < beyondMantissa then low else low + 1

theorem chosenExponent_bounds {num den : Nat} (hn : num ≠ 0) (hd : 0 < den) :
    (2 : ℚ) ^ (chosenExponent num den + 52) ≤ num / den ∧
      (num : ℚ) / den < 2 ^ (chosenExponent num den + 53) := by
  obtain ⟨h₁, h₂⟩ := log2_bounds hn hd
  unfold chosenExponent
  dsimp only
  set low : Int := (num.log2 : Int) - den.log2 - 53 with hlow
  obtain ⟨hp, hv⟩ := inUnits_spec num hd low
  generalize inUnits num den low = u at hp hv ⊢
  obtain ⟨n, d⟩ := u
  dsimp only at hp hv ⊢
  have hd' : (0 : ℚ) < d := by exact_mod_cast hp
  have hs : (2 : ℚ) ^ (low + 53) = 2 ^ low * beyondMantissa := by
    rw [zpow_add₀ two_ne_zero]
    norm_num [beyondMantissa]
  split
  · rename_i h
    have hlt : (n : ℚ) / d < beyondMantissa := by
      rw [div_lt_iff₀ hd']
      exact_mod_cast (Nat.div_lt_iff_lt_mul hp).1 h
    refine ⟨?_, ?_⟩
    · rw [show low + 52 = (num.log2 : Int) - den.log2 - 1 by omega]
      exact h₁.le
    · rw [hv, div_lt_iff₀ (zpow_two_pos _), mul_comm] at hlt
      rwa [hs]
  · rename_i h
    have hle : (beyondMantissa : ℚ) ≤ n / d := by
      rw [le_div_iff₀ hd']
      exact_mod_cast (Nat.le_div_iff_mul_le hp).1 (Nat.le_of_not_lt h)
    refine ⟨?_, ?_⟩
    · rw [hv, le_div_iff₀ (zpow_two_pos _), mul_comm] at hle
      rwa [show low + 1 + 52 = low + 53 by ring, hs]
    · rw [show low + 1 + 53 = (num.log2 : Int) - den.log2 + 1 by omega]
      exact h₂

/-! ## What the rounding finds -/

/-- The rounding chooses an exponent, rounds in its units, and gives a mantissa of one bit too many
the next exponent. -/
theorem nearest?_eq {num den : Nat} (hn : num ≠ 0) :
    nearest? num den =
      let e := max (chosenExponent num den) leastExponent
      let m := roundDiv (inUnits num den e).1 (inUnits num den e).2
      let (m, e) := if m = beyondMantissa then (leastNormal, e + 1) else (m, e)
      if greatestExponent < e then none else some (m, e) := by
  rw [nearest?, if_neg hn]
  rfl

/-- The value that the rounding finds for a quotient, before it is looked at whether it is too
large: it has at most 53 bits, or is the first number of more, and lies within half a unit. -/
theorem rounded_bounds {num den : Nat} (hn : num ≠ 0) (hd : 0 < den) {e : Int} {m : Nat}
    (he : e = max (chosenExponent num den) leastExponent)
    (hm : m = roundDiv (inUnits num den e).1 (inUnits num den e).2) :
    m ≤ beyondMantissa ∧ scaled m e ≤ num / den + 2 ^ (e - 1) := by
  obtain ⟨hu, hv⟩ := inUnits_spec num hd e
  have h := roundDiv_le (n := (inUnits num den e).1) hu
  rw [← hm, hv] at h
  have hp := zpow_two_pos e
  have hh : (2 : ℚ) ^ (e - 1) = 1 / 2 * 2 ^ e := by
    rw [zpow_sub_one₀ two_ne_zero]
    ring
  have hc : (num : ℚ) / den / 2 ^ e * 2 ^ e = num / den := div_mul_cancel₀ _ hp.ne'
  refine ⟨?_, ?_⟩
  · have hlt : (num : ℚ) / den / 2 ^ e < beyondMantissa := by
      rw [div_lt_iff₀ hp]
      calc (num : ℚ) / den < 2 ^ (chosenExponent num den + 53) := (chosenExponent_bounds hn hd).2
        _ ≤ 2 ^ (e + 53) := zpow_le_zpow_right₀ one_le_two (by omega)
        _ = beyondMantissa * 2 ^ e := by
            rw [zpow_add₀ two_ne_zero, mul_comm]
            norm_num [beyondMantissa]
    have hm' : (m : ℚ) < beyondMantissa + 1 := by linarith
    have hm'' : m < beyondMantissa + 1 := by exact_mod_cast hm'
    omega
  · have h := mul_le_mul_of_nonneg_right h hp.le
    rwa [add_mul, hc, ← hh] at h

/-- One bit more is the next exponent. -/
theorem scaled_beyondMantissa (e : Int) : scaled beyondMantissa e = scaled leastNormal (e + 1) := by
  rw [scaled, scaled, zpow_add_one₀ two_ne_zero]
  norm_num [beyondMantissa, leastNormal]
  ring

/-- What the rounding finds is finite and at most half a unit above the quotient. -/
theorem nearest?_le {num den : Nat} (hn : num ≠ 0) (hd : 0 < den) {m : Nat} {e : Int}
    (h : nearest? num den = some (m, e)) :
    m < beyondMantissa ∧ leastExponent ≤ e ∧ e ≤ greatestExponent ∧
      scaled m e ≤ num / den + 2 ^ (max (chosenExponent num den) leastExponent - 1) := by
  rw [nearest?_eq hn] at h
  dsimp only at h
  set e₀ := max (chosenExponent num den) leastExponent with he₀
  set m₀ := roundDiv (inUnits num den e₀).1 (inUnits num den e₀).2 with hm₀
  obtain ⟨hb, hle⟩ := rounded_bounds hn hd he₀ hm₀
  have hl : leastExponent ≤ e₀ := le_max_right _ _
  split at h
  · rename_i hm
    dsimp only at h
    split at h
    · simp at h
    · rename_i hg
      obtain ⟨rfl, rfl⟩ : leastNormal = m ∧ e₀ + 1 = e := by simpa using h
      refine ⟨by decide, by omega, by omega, ?_⟩
      rwa [← scaled_beyondMantissa, ← hm]
  · rename_i hm
    dsimp only at h
    split at h
    · simp at h
    · rename_i hg
      obtain ⟨rfl, rfl⟩ : m₀ = m ∧ e₀ = e := by simpa using h
      exact ⟨by omega, hl, by omega, hle⟩

/-- There is something to find below half a unit past the greatest number. -/
theorem nearest?_isSome (num : Nat) {den : Nat} (hd : 0 < den) (h : (num : ℚ) / den < limit) :
    (nearest? num den).isSome := by
  rcases eq_or_ne num 0 with rfl | hn
  · rfl
  · rw [nearest?_eq hn]
    dsimp only
    set e₀ := max (chosenExponent num den) leastExponent with he₀
    set m₀ := roundDiv (inUnits num den e₀).1 (inUnits num den e₀).2 with hm₀
    obtain ⟨-, hle⟩ := rounded_bounds hn hd he₀ hm₀
    have hc : e₀ ≤ greatestExponent := by
      by_contra hlt
      have he : e₀ = chosenExponent num den := by
        rw [he₀, max_eq_left_iff]
        rw [not_le, he₀, lt_max_iff] at hlt
        rcases hlt with hlt | hlt
        · exact le_trans (by decide) hlt.le
        · exact absurd hlt (by decide)
      have h₁ : (2 : ℚ) ^ (1024 : Int) ≤ num / den :=
        calc (2 : ℚ) ^ (1024 : Int) ≤ 2 ^ (e₀ + 52) :=
              zpow_le_zpow_right₀ one_le_two (by simp only [greatestExponent] at hlt; omega)
          _ ≤ num / den := by rw [he]; exact (chosenExponent_bounds hn hd).1
      exact absurd (h.trans (sub_lt_self _ (zpow_two_pos 970))) (not_lt.2 h₁)
    split
    · rename_i hm
      dsimp only
      rw [if_neg]
      · rfl
      · intro hlt
        -- the greatest exponent is exceeded only from half a unit below the first number past it
        have he : e₀ = greatestExponent := by omega
        rw [hm, he, scaled, beyondMantissa_eq, ← zpow_add₀ two_ne_zero] at hle
        exact absurd h (not_lt.2 (sub_le_iff_le_add.2 hle))
    · dsimp only
      rw [if_neg (by omega)]
      rfl

/-! ## Whole numbers -/

/-- A whole number is far from the least exponent. -/
theorem leastExponent_le_chosenExponent {n : Nat} (hn : n ≠ 0) :
    leastExponent ≤ chosenExponent n 1 := by
  by_contra hlt
  have h₁ : (1 : ℚ) ≤ n := by exact_mod_cast Nat.one_le_iff_ne_zero.2 hn
  have h₂ := (chosenExponent_bounds hn one_pos).2
  have h₃ : (2 : ℚ) ^ (chosenExponent n 1 + 53) ≤ 2 ^ (0 : Int) :=
    zpow_le_zpow_right₀ one_le_two (by simp only [leastExponent] at hlt; omega)
  rw [Nat.cast_one, div_one] at h₂
  rw [zpow_zero] at h₃
  linarith

/-- A whole number has 53 bits to be rounded to, so nothing but zero becomes zero. -/
theorem mantissa_ofNat_ne_zero {n : Nat} (hn : n ≠ 0) (h : (n : ℚ) < limit) :
    (ofNat n).mantissa ≠ 0 := by
  have h₁ : ((n : ℚ) / (1 : Nat)) = n := by rw [Nat.cast_one, div_one]
  obtain ⟨⟨m, e⟩, hm⟩ := Option.isSome_iff_exists.1 (nearest?_isSome n one_pos (by rwa [h₁]))
  have hmantissa : (ofNat n).mantissa = m := by
    rw [ofNat, ofRatio?, hm]
    rfl
  rw [hmantissa]
  rw [nearest?_eq hn, max_eq_left (leastExponent_le_chosenExponent hn)] at hm
  dsimp only at hm
  set e₀ := chosenExponent n 1 with he₀
  obtain ⟨hd, hv⟩ := inUnits_spec n one_pos e₀
  have hone : 1 ≤ (inUnits n 1 e₀).1 / (inUnits n 1 e₀).2 := by
    have hd' : (0 : ℚ) < (inUnits n 1 e₀).2 := by exact_mod_cast hd
    have hle : (1 : ℚ) ≤ (inUnits n 1 e₀).1 / (inUnits n 1 e₀).2 := by
      rw [hv, le_div_iff₀ (zpow_two_pos e₀), one_mul]
      exact (zpow_le_zpow_right₀ one_le_two (by omega)).trans (chosenExponent_bounds hn one_pos).1
    rw [one_le_div hd'] at hle
    rw [Nat.one_le_div_iff hd]
    exact_mod_cast hle
  have hround := hone.trans (div_le_roundDiv _ _)
  split at hm
  · split at hm
    · cases hm
    · obtain ⟨rfl, -⟩ := Prod.mk.inj (Option.some.inj hm)
      exact Nat.succ_ne_zero _
  · split at hm
    · cases hm
    · obtain ⟨rfl, -⟩ := Prod.mk.inj (Option.some.inj hm)
      exact Nat.one_le_iff_ne_zero.1 hround

/-- A whole number is rounded up by at most half a unit of its 53 bits. -/
theorem magnitude_ofNat_le {n : Nat} (hn : n ≠ 0) (h : (n : ℚ) < limit) :
    ∃ e : Int, 2 ^ (e + 52) ≤ (n : ℚ) ∧ (ofNat n).magnitude ≤ n + 2 ^ (e - 1) := by
  have h₁ : ((n : ℚ) / (1 : Nat)) = n := by rw [Nat.cast_one, div_one]
  obtain ⟨⟨m, e⟩, hm⟩ := Option.isSome_iff_exists.1
    (nearest?_isSome n one_pos (by rwa [h₁]))
  obtain ⟨-, -, -, hle⟩ := nearest?_le hn one_pos hm
  rw [max_eq_left (leastExponent_le_chosenExponent hn), h₁] at hle
  refine ⟨chosenExponent n 1, ?_, ?_⟩
  · have := (chosenExponent_bounds hn one_pos).1
    rwa [h₁] at this
  · rw [ofNat, ofRatio?, hm]
    exact hle

/-- In relation to the number, that is one part in `2 ^ 53`. -/
theorem magnitude_ofNat_le_mul {n : Nat} (hn : n ≠ 0) (h : (n : ℚ) < limit) :
    (ofNat n).magnitude ≤ n * (1 + 2 ^ (-53 : Int)) := by
  obtain ⟨e, he, hle⟩ := magnitude_ofNat_le hn h
  have hs : (2 : ℚ) ^ (e - 1) = 2 ^ (e + 52) * 2 ^ (-53 : Int) := by
    rw [← zpow_add₀ two_ne_zero]
    congr 1
    ring
  have hm := mul_le_mul_of_nonneg_right he (zpow_two_pos (-53)).le
  rw [mul_add, mul_one]
  linarith

/-- Numbers of 53 bits are kept as they are. -/
theorem magnitude_ofNat {n : Nat} (h : n < beyondMantissa) : (ofNat n).magnitude = n := by
  rcases eq_or_ne n 0 with rfl | hn
  · norm_num [ofNat, ofRatio?, nearest?, magnitude, scaled]
  · have h₁ : ((n : ℚ) / (1 : Nat)) = n := by rw [Nat.cast_one, div_one]
    obtain ⟨hl, hu⟩ := chosenExponent_bounds hn one_pos
    have hmax := max_eq_left (leastExponent_le_chosenExponent hn)
    rw [h₁] at hl hu
    set e := chosenExponent n 1
    have he : e ≤ 0 := by
      by_contra hlt
      have hb : (n : ℚ) < 2 ^ (53 : Int) := by
        rw [← beyondMantissa_eq]
        exact_mod_cast h
      have hp : (2 : ℚ) ^ (53 : Int) ≤ 2 ^ (e + 52) := zpow_le_zpow_right₀ one_le_two (by omega)
      linarith
    have hd : (inUnits n 1 e).2 = 1 := by
      unfold inUnits
      split
      · rw [show e = 0 by omega]
        rfl
      · rfl
    obtain ⟨-, hv⟩ := inUnits_spec n one_pos e
    rw [hd, Nat.cast_one, div_one, div_one] at hv
    have hm : (inUnits n 1 e).1 < beyondMantissa := by
      have hlt : ((inUnits n 1 e).1 : ℚ) < beyondMantissa := by
        rw [hv, div_lt_iff₀ (zpow_two_pos e), beyondMantissa_eq, ← zpow_add₀ two_ne_zero,
          add_comm]
        exact hu
      exact_mod_cast hlt
    have hn : nearest? n 1 = some ((inUnits n 1 e).1, e) := by
      rw [nearest?_eq hn]
      dsimp only
      rw [hmax, hd, roundDiv_one, if_neg hm.ne]
      exact if_neg (by simp only [greatestExponent]; omega)
    rw [ofNat, ofRatio?, hn]
    show scaled (inUnits n 1 e).1 e = n
    rw [scaled, hv, div_mul_cancel₀ _ (zpow_two_pos e).ne']

end ControlPlane.Double
