import ControlPlane.Proofs.Number.Shortest

/-!
# Floating-point numbers: from decimal notation

Whatever digits of 64 bits stand before a power of ten that is not positive, they are read as a
finite number (`Double.finite_ofScientific?_of_nonpos`), and so is the shortest notation of every
finite number (`Double.finite_ofScientific?_shortest`): the two roundings on the way from the
digits never lead past the greatest number. That needs the powers of ten to be looked at one by one
where the digits have more than 53 bits.
-/

namespace ControlPlane.Double

open Numeral

/-! ## Results are finite -/

theorem finite_zero (negative : Bool) : (zero negative).Finite :=
  ⟨by show 0 < beyondMantissa; decide, by show leastExponent ≤ leastExponent; decide,
    by show leastExponent ≤ greatestExponent; decide⟩

theorem finite_of_ofRatio? {negative : Bool} {num den : Nat} (hd : 0 < den) {y : Double}
    (h : ofRatio? negative num den = some y) : y.Finite := by
  obtain ⟨⟨m, e⟩, hm, rfl⟩ := Option.map_eq_some_iff.1 h
  rcases eq_or_ne num 0 with rfl | hn
  · rw [nearest?, if_pos rfl, Option.some.injEq, Prod.mk.injEq] at hm
    obtain ⟨rfl, rfl⟩ := hm
    exact finite_zero negative
  · obtain ⟨h₁, h₂, h₃, -⟩ := nearest?_le hn hd hm
    exact ⟨h₁, h₂, h₃⟩

theorem finite_getD_ofRatio? (negative : Bool) (num : Nat) {den : Nat} (hd : 0 < den) :
    ((ofRatio? negative num den).getD (zero negative)).Finite := by
  cases h : ofRatio? negative num den with
  | none => exact finite_zero negative
  | some y => exact finite_of_ofRatio? hd h

theorem finite_ofNat (n : Nat) : (ofNat n).Finite :=
  finite_getD_ofRatio? false n one_pos

theorem Finite.withSign {x : Double} (h : x.Finite) (negative : Bool) :
    ({ x with negative := negative } : Double).Finite :=
  ⟨h.mantissa_lt, h.least_le, h.le_greatest⟩

theorem finite_ofInt (i : Int) : (ofInt i).Finite :=
  (finite_ofNat i.natAbs).withSign _

/-! ## Bounds of single numbers -/

/-- Half a unit of the greatest exponent. -/
@[irreducible]
def halfUnit : Nat :=
  Nat.pow 2 (greatestExponent - 1).toNat

theorem natCast_two_pow {e : Int} (he : 0 ≤ e) : ((Nat.pow 2 e.toNat : Nat) : ℚ) = 2 ^ e := by
  rw [Nat.pow_eq, Nat.cast_pow, Nat.cast_ofNat, ← zpow_natCast, Int.toNat_of_nonneg he]

theorem halfUnit_eq : (halfUnit : ℚ) = 2 ^ (greatestExponent - 1) := by
  delta halfUnit
  exact natCast_two_pow (by decide)

theorem halfUnit_pos : (0 : ℚ) < halfUnit := by
  rw [halfUnit_eq]
  exact zpow_two_pos _

/-- The limit is `2 ^ 54 - 1` half units. -/
theorem limit_eq : limit = 18014398509481983 * halfUnit := by
  have h : (2 : ℚ) ^ (1024 : Int) = 2 ^ (54 : Int) * 2 ^ (970 : Int) := by
    rw [← zpow_add₀ two_ne_zero]
    rfl
  have h' : (2 : ℚ) ^ (54 : Int) = 18014398509481984 := by norm_num
  have he : greatestExponent - 1 = 970 := by decide
  rw [limit, h, h', halfUnit_eq, he]
  ring

/-! ## The powers of ten, looked at one by one -/

/-- By how much a power of ten of many bits is rounded up. -/
def excess (p : Nat) : Nat :=
  (powerOfTen p).mantissa * Nat.pow 2 (powerOfTen p).exponent.toNat - Nat.pow 10 p

/-- What is computed of the powers of ten: each is below the limit, those below `10 ^ 291` leave
room for eighteen digits, before the next two digits of more than 53 bits can stand although there
is little room left (`53 + k` bits with `k = 5` and `k = 1`), and before greater ones there are at
most 53 bits. -/
theorem powers_of_ten :
    (∀ p < 309, Nat.pow 10 p < 18014398509481983 * halfUnit) ∧
    (∀ p < 291, 1000000000000000064 * (3 * Nat.pow 10 p) < 36028797018963966 * halfUnit) ∧
    (∀ p < 293, 291 ≤ p →
      18014398509481981 * halfUnit < 2 ^ (53 + (1 + 4 * (292 - p))) * Nat.pow 10 p ∧
        0 ≤ (powerOfTen p).exponent ∧
        2 ^ (1 + 4 * (292 - p)) * (Nat.pow 10 p + excess p) +
          2 ^ (54 + (1 + 4 * (292 - p))) * excess p < 4 * halfUnit) ∧
    (∀ p < 309, 293 ≤ p → 18014398509481981 * halfUnit < beyondMantissa * Nat.pow 10 p) ∧
    18014398509481981 * halfUnit < Nat.pow 10 (greatestPower + 1) := by decide +kernel

theorem pow_ten_lt_limit {p : Nat} (hp : p ≤ greatestPower) :
    ((Nat.pow 10 p : Nat) : ℚ) < limit := by
  have hlt := powers_of_ten.1 p (by simp only [greatestPower] at hp; omega)
  rw [limit_eq]
  exact_mod_cast hlt

/-- Half a unit above any finite number but the greatest one there is room for half a unit more
before the limit. -/
theorem magnitude_add_le {x : Double} (hx : x.Finite)
    (hg : ¬(x.mantissa = beyondMantissa - 1 ∧ x.exponent = greatestExponent)) :
    x.magnitude + 2 ^ (x.exponent - 1) ≤ 18014398509481981 * halfUnit := by
  obtain ⟨hm, -, he⟩ := hx
  have hu := halfUnit_pos
  have hh : (2 : ℚ) ^ x.exponent = 2 * 2 ^ (x.exponent - 1) := by
    rw [zpow_sub_one₀ two_ne_zero]
    ring
  rw [magnitude, scaled, hh]
  rcases Int.lt_or_eq_of_le he with hlt | heq
  · have hp : (2 : ℚ) ^ (x.exponent - 1) ≤ halfUnit / 2 := by
      rw [halfUnit_eq, div_eq_mul_inv, ← zpow_sub_one₀ two_ne_zero]
      exact zpow_le_zpow_right₀ one_le_two (by omega)
    have hm' : (x.mantissa : ℚ) ≤ 2 ^ 53 := by
      have : x.mantissa ≤ 2 ^ 53 := by simp only [beyondMantissa] at hm; omega
      exact_mod_cast this
    have hpos := zpow_two_pos (x.exponent - 1)
    calc (x.mantissa : ℚ) * (2 * 2 ^ (x.exponent - 1)) + 2 ^ (x.exponent - 1)
        = (2 * x.mantissa + 1) * 2 ^ (x.exponent - 1) := by ring
      _ ≤ (2 * 2 ^ 53 + 1) * (halfUnit / 2) :=
          mul_le_mul (by linarith) hp hpos.le (by norm_num)
      _ ≤ 18014398509481981 * halfUnit := by norm_num; linarith
  · have hp : (2 : ℚ) ^ (x.exponent - 1) = halfUnit := by
      rw [heq, halfUnit_eq]
    have hm' : (x.mantissa : ℚ) ≤ 2 ^ 53 - 2 := by
      have hne : x.mantissa ≠ beyondMantissa - 1 := fun h => hg ⟨h, heq⟩
      have : x.mantissa + 2 ≤ 2 ^ 53 := by
        simp only [beyondMantissa] at hm hne
        omega
      have : (x.mantissa : ℚ) + 2 ≤ 2 ^ 53 := by exact_mod_cast this
      linarith
    rw [hp]
    calc (x.mantissa : ℚ) * (2 * halfUnit) + halfUnit = (2 * x.mantissa + 1) * halfUnit := by ring
      _ ≤ 18014398509481981 * halfUnit := mul_le_mul_of_nonneg_right (by linarith) hu.le

/-- A whole number of `53 + k` bits is rounded up by at most half of `2 ^ k`. -/
theorem magnitude_ofNat_le_add {s k : Nat} (hs : s < 2 ^ (53 + k)) (hk : 53 + k ≤ 1023) :
    (ofNat s).magnitude ≤ s + 2 ^ ((k : Int) - 1) := by
  rcases eq_or_ne s 0 with rfl | hn
  · rw [magnitude_ofNat (by decide)]
    exact le_add_of_nonneg_right (zpow_two_pos _).le
  · have hs' : (s : ℚ) < 2 ^ ((53 : Int) + k) := by
      have : (s : ℚ) < 2 ^ (53 + k) := by exact_mod_cast hs
      rwa [← zpow_natCast, Nat.cast_add] at this
    have hlim : (s : ℚ) < limit := by
      have h₁ : (2 : ℚ) ^ ((53 : Int) + k) ≤ 2 ^ (1023 : Int) :=
        zpow_le_zpow_right₀ one_le_two (by omega)
      have h₂ : (2 : ℚ) ^ (1023 : Int) = 2 ^ (53 : Int) * halfUnit := by
        rw [halfUnit_eq, ← zpow_add₀ two_ne_zero,
          show (53 : Int) + (greatestExponent - 1) = 1023 by decide]
      rw [limit_eq]
      exact (hs'.trans_le (h₁.trans_eq h₂)).trans_le
        (mul_le_mul_of_nonneg_right (by norm_num) halfUnit_pos.le)
    obtain ⟨e, he, hle⟩ := magnitude_ofNat_le hn hlim
    have hk' : e ≤ k := by
      have := (zpow_lt_zpow_iff_right₀ (one_lt_two (α := ℚ))).1 (he.trans_lt hs')
      omega
    have : (2 : ℚ) ^ (e - 1) ≤ 2 ^ ((k : Int) - 1) :=
      zpow_le_zpow_right₀ one_le_two (by omega)
    linarith

/-- A power of ten is rounded up by at most one part in `2 ^ 53`. -/
theorem magnitude_powerOfTen_le {p : Nat} (hp : p ≤ greatestPower) :
    (powerOfTen p).magnitude ≤ 10 ^ p * (1 + 2 ^ (-53 : Int)) := by
  have hn : Nat.pow 10 p ≠ 0 := (Nat.pow_pos (by omega)).ne'
  have h := magnitude_ofNat_le_mul hn (pow_ten_lt_limit hp)
  rw [Nat.pow_eq, Nat.cast_pow] at h
  exact h

/-! ## Products and quotients -/

theorem finite_overPower (x : Double) {k : Nat} (hk : k ≤ greatestPower) :
    (x.overPower k).Finite := by
  have hn : Nat.pow 10 k ≠ 0 := (Nat.pow_pos (by omega)).ne'
  have hp : (powerOfTen k).mantissa ≠ 0 := mantissa_ofNat_ne_zero hn (pow_ten_lt_limit hk)
  have hc : 0 < (powerOfTen k).ratio.1 := by
    unfold ratio inUnits
    split
    · exact Nat.pos_of_ne_zero hp
    · exact Nat.mul_pos (Nat.pos_of_ne_zero hp) (Nat.pow_pos (by omega))
  exact finite_getD_ofRatio? _ _ (Nat.mul_pos (ratio_spec x).1 hc)

theorem finite_shrink (x : Double) (k : Nat) : (x.shrink k).Finite := by
  fun_induction shrink x k with
  | case1 x k h => exact finite_overPower x (Nat.min_le_right _ _)
  | case2 x k h ih => exact ih

theorem timesPower?_isSome {x : Double} {k : Nat}
    (h : x.magnitude * (powerOfTen k).magnitude < limit) :
    ∃ y, x.timesPower? k = some y ∧ y.Finite := by
  obtain ⟨hb, hx⟩ := ratio_spec x
  obtain ⟨hd, hp⟩ := ratio_spec (powerOfTen k)
  have hlt : ((x.ratio.1 * (powerOfTen k).ratio.1 : Nat) : ℚ) /
      (x.ratio.2 * (powerOfTen k).ratio.2 : Nat) < limit := by
    push_cast
    rwa [mul_div_mul_comm, hx, hp]
  obtain ⟨⟨m, e⟩, hm⟩ := Option.isSome_iff_exists.1 (nearest?_isSome _ (Nat.mul_pos hb hd) hlt)
  have ht : x.timesPower? k = ofRatio? x.negative (x.ratio.1 * (powerOfTen k).ratio.1)
      (x.ratio.2 * (powerOfTen k).ratio.2) := rfl
  have hy : x.timesPower? k = some ⟨x.negative, m, e⟩ := by
    rw [ht, ofRatio?, hm]
    rfl
  exact ⟨_, hy, finite_of_ofRatio? (Nat.mul_pos hb hd) hy⟩

/-! ## From decimal notation -/

/-- The number that is read for a significand alone. -/
theorem magnitude_withSign (n : Nat) (negative : Bool) :
    ({ ofNat n with negative := negative } : Double).magnitude = (ofNat n).magnitude := rfl

theorem magnitude_powerOfTen_zero : (powerOfTen 0).magnitude = 1 := by
  rw [powerOfTen, magnitude_ofNat (by decide)]
  norm_num

/-- Digits of 64 bits are read as a finite number if no positive power of ten follows. -/
theorem finite_ofScientific?_of_nonpos (negative : Bool) {s : Nat} (hs : s < 2 ^ 64) {e : Int}
    (he : e ≤ 0) : ∃ y, ofScientific? negative s e = some y ∧ y.Finite := by
  unfold ofScientific?
  dsimp only
  split
  · exact ⟨_, rfl, (finite_ofNat s).withSign negative⟩
  · split
    · exact ⟨_, rfl, finite_shrink _ _⟩
    · have h₀ : e.toNat = 0 := by omega
      rw [h₀, if_pos (by decide)]
      refine timesPower?_isSome ?_
      have hle : (ofNat s).magnitude ≤ s + 2 ^ (10 : Int) :=
        magnitude_ofNat_le_add (k := 11) hs (by decide)
      have hlt : ((2 ^ 65 : Nat) : ℚ) < 18014398509481983 * halfUnit := by
        have : Nat.pow 10 20 < 18014398509481983 * halfUnit := powers_of_ten.1 20 (by decide)
        have : 2 ^ 65 < 18014398509481983 * halfUnit := lt_of_le_of_lt (by decide) this
        exact_mod_cast this
      have hs' : (s : ℚ) ≤ 2 ^ (64 : Nat) := by exact_mod_cast hs.le
      have hn : (2 : ℚ) ^ (64 : Nat) + 2 ^ (10 : Int) ≤ (2 ^ 65 : Nat) := by norm_num
      rw [magnitude_withSign, magnitude_powerOfTen_zero, mul_one, limit_eq]
      exact (hle.trans (add_le_add_left hs' _)).trans_lt (hn.trans_lt hlt)

/-- The two roundings of digits of 53 bits and a power of ten. -/
theorem product_lt_of_exact {s p : Nat} (hs : s < beyondMantissa) (hp : p ≤ greatestPower)
    (h : (s : ℚ) * 10 ^ p ≤ 18014398509481981 * halfUnit) :
    (ofNat s).magnitude * (powerOfTen p).magnitude < limit := by
  have hu := halfUnit_pos
  have hε : (0 : ℚ) ≤ 1 + 2 ^ (-53 : Int) := by positivity
  rw [magnitude_ofNat hs, limit_eq]
  calc (s : ℚ) * (powerOfTen p).magnitude ≤ s * (10 ^ p * (1 + 2 ^ (-53 : Int))) :=
        mul_le_mul_of_nonneg_left (magnitude_powerOfTen_le hp) (Nat.cast_nonneg s)
    _ = s * 10 ^ p * (1 + 2 ^ (-53 : Int)) := (mul_assoc _ _ _).symm
    _ ≤ 18014398509481981 * halfUnit * (1 + 2 ^ (-53 : Int)) := mul_le_mul_of_nonneg_right h hε
    _ < 18014398509481983 * halfUnit := by norm_num; linarith

/-- The two roundings of eighteen digits and a power of ten that leaves room for them. -/
theorem product_lt_of_small {s p : Nat} (hs : s ≤ 10 ^ 18) (hp : p ≤ 290) :
    (ofNat s).magnitude * (powerOfTen p).magnitude < limit := by
  obtain ⟨-, room, -⟩ := powers_of_ten
  have hlt : (1000000000000000064 * (3 * 10 ^ p) : ℚ) < 36028797018963966 * halfUnit := by
    have := room p (by omega)
    rw [Nat.pow_eq] at this
    exact_mod_cast this
  have hs₁ : (ofNat s).magnitude ≤ 1000000000000000064 := by
    have h := magnitude_ofNat_le_add (s := s) (k := 7) (by omega) (by decide)
    have h' : (s : ℚ) ≤ (10 ^ 18 : Nat) := Nat.cast_le.2 hs
    have hn : ((10 ^ 18 : Nat) : ℚ) + 2 ^ (((7 : Nat) : Int) - 1) ≤ 1000000000000000064 := by
      norm_num
    exact h.trans ((add_le_add_left h' _).trans hn)
  have hp₁ : (powerOfTen p).magnitude ≤ 10 ^ p * (3 / 2) := by
    have hε : (1 : ℚ) + 2 ^ (-53 : Int) ≤ 3 / 2 := by norm_num
    exact (magnitude_powerOfTen_le (by simp only [greatestPower]; omega)).trans
      (mul_le_mul_of_nonneg_left hε (by positivity))
  have hmul := mul_le_mul hs₁ hp₁ (magnitude_nonneg _) (by norm_num)
  rw [limit_eq]
  linarith

theorem magnitude_powerOfTen_le_add {p : Nat} (he : 0 ≤ (powerOfTen p).exponent) :
    (powerOfTen p).magnitude ≤ (10 : ℚ) ^ p + excess p := by
  have hm : (powerOfTen p).magnitude =
      ((powerOfTen p).mantissa * Nat.pow 2 (powerOfTen p).exponent.toNat : Nat) := by
    rw [Nat.cast_mul, natCast_two_pow he]
    rfl
  have hle : (powerOfTen p).mantissa * Nat.pow 2 (powerOfTen p).exponent.toNat ≤
      10 ^ p + excess p := by
    rw [excess, Nat.pow_eq, Nat.pow_eq]
    omega
  rw [hm]
  exact_mod_cast hle

/-- Digits of `53 + k` bits and one of the greatest powers of ten. -/
theorem product_lt_of_great {s p k : Nat} (hs : s < 2 ^ (53 + k)) (hk : 53 + k ≤ 1023)
    (he : 0 ≤ (powerOfTen p).exponent)
    (hroom : 2 ^ k * (Nat.pow 10 p + excess p) + 2 ^ (54 + k) * excess p < 4 * halfUnit)
    (h : (s : ℚ) * 10 ^ p ≤ 18014398509481981 * halfUnit) :
    (ofNat s).magnitude * (powerOfTen p).magnitude < limit := by
  have hs₁ := magnitude_ofNat_le_add hs hk
  have hs₂ : (2 : ℚ) * 2 ^ ((k : Int) - 1) = 2 ^ k := by
    rw [← zpow_one_add₀ two_ne_zero, add_sub_cancel, zpow_natCast]
  have hs₃ : (s : ℚ) ≤ 2 ^ (53 + k) := by exact_mod_cast hs.le
  have hp := magnitude_powerOfTen_le_add he
  have hpos := zpow_two_pos ((k : Int) - 1)
  generalize excess p = d at hp hroom
  have hroom' : (2 : ℚ) ^ k * (10 ^ p + d) + 2 ^ (54 + k) * d < 4 * halfUnit := by
    rw [Nat.pow_eq] at hroom
    exact_mod_cast hroom
  have hd : (0 : ℚ) ≤ d := Nat.cast_nonneg d
  have hmul := mul_le_mul hs₁ hp (magnitude_nonneg _) (by positivity)
  have hsd : 2 * (s * d : ℚ) ≤ 2 ^ (54 + k) * d :=
    calc 2 * (s * d : ℚ) ≤ 2 * (2 ^ (53 + k) * d) :=
          mul_le_mul_of_nonneg_left (mul_le_mul_of_nonneg_right hs₃ hd) two_pos.le
      _ = 2 ^ (54 + k) * d := by ring
  have hexp : ((s : ℚ) + 2 ^ ((k : Int) - 1)) * (10 ^ p + d) =
      s * 10 ^ p + s * d + 2 ^ k * (10 ^ p + d) / 2 := by
    rw [← hs₂]
    ring
  rw [limit_eq]
  rw [hexp] at hmul
  linarith

/-- A number that is far enough from the limit, in decimal notation. -/
theorem product_lt {s p : Nat} (hs : 0 < s) (hs' : s ≤ 10 ^ 18)
    (h : (s : ℚ) * 10 ^ p ≤ 18014398509481981 * halfUnit) :
    p ≤ greatestPower ∧ (ofNat s).magnitude * (powerOfTen p).magnitude < limit := by
  obtain ⟨-, -, great_powers, greater_powers, limit_lt_pow_ten⟩ := powers_of_ten
  have hn : s * Nat.pow 10 p ≤ 18014398509481981 * halfUnit := by
    rw [Nat.pow_eq]
    exact_mod_cast h
  have hg : p ≤ greatestPower := by
    by_contra hlt
    have mono : ∀ q ≤ p, Nat.pow 10 q ≤ Nat.pow 10 p := fun q => Nat.pow_le_pow_right (by omega)
    have h₁ := (mono (greatestPower + 1) (by omega)).trans (Nat.le_mul_of_pos_left _ hs)
    exact absurd limit_lt_pow_ten (not_lt.2 (h₁.trans hn))
  have hp : p < 309 := by simp only [greatestPower] at hg; omega
  refine ⟨hg, ?_⟩
  rcases Nat.lt_or_ge p 291 with h₁ | h₁
  · exact product_lt_of_small hs' (by omega)
  · rcases Nat.lt_or_ge p 293 with h₂ | h₂
    · obtain ⟨hlt, he, hroom⟩ := great_powers p h₂ h₁
      have hbits := Nat.lt_of_mul_lt_mul_right (hn.trans_lt hlt)
      exact product_lt_of_great hbits (by omega) he hroom h
    · have hbits := Nat.lt_of_mul_lt_mul_right (hn.trans_lt (greater_powers p hp h₂))
      exact product_lt_of_exact hbits hg h

/-- The greatest number is not far enough from the limit; its notation is looked at itself. -/
theorem shortest_greatest : ∀ negative : Bool,
    shortest ⟨negative, beyondMantissa - 1, greatestExponent⟩ =
      ⟨[1, 7, 9, 7, 6, 9, 3, 1, 3, 4, 8, 6, 2, 3, 1, 5, 7], 309⟩ ∧
    ofScientific? negative 17976931348623157 292 =
      some ⟨negative, beyondMantissa - 1, greatestExponent⟩ := by decide +kernel

theorem finite_greatest (negative : Bool) :
    (⟨negative, beyondMantissa - 1, greatestExponent⟩ : Double).Finite :=
  ⟨by show beyondMantissa - 1 < beyondMantissa; decide,
    by show leastExponent ≤ greatestExponent; decide, le_refl greatestExponent⟩

/-- The shortest notation of a finite number, as digits and a power of ten, is read as a finite
number. -/
theorem finite_ofScientific?_shortest {x : Double} (hx : x.Finite) (hm : x.mantissa ≠ 0) :
    ∃ y, ofScientific? x.negative (ofDigits 10 x.shortest.digits)
      (x.shortest.point - x.shortest.digits.length) = some y ∧ y.Finite := by
  obtain ⟨-, -, -, hs, hs', hle⟩ := shortest_spec hm
  rcases lt_or_ge 0 (x.shortest.point - x.shortest.digits.length) with hp | hp
  · by_cases hg : x.mantissa = beyondMantissa - 1 ∧ x.exponent = greatestExponent
    · obtain ⟨negative, m, e⟩ := x
      obtain ⟨rfl, rfl⟩ : m = beyondMantissa - 1 ∧ e = greatestExponent := hg
      obtain ⟨hshortest, hread⟩ := shortest_greatest negative
      rw [hshortest]
      exact ⟨_, hread, finite_greatest negative⟩
    · generalize ofDigits 10 x.shortest.digits = s at hs hs' hle ⊢
      generalize x.shortest.point - x.shortest.digits.length = e at hp hle ⊢
      obtain ⟨p, rfl⟩ := Int.eq_ofNat_of_zero_le hp.le
      rw [zpow_natCast] at hle
      obtain ⟨hg', hlt⟩ := product_lt hs hs' (hle.trans (magnitude_add_le hx hg))
      unfold ofScientific?
      dsimp only
      rw [if_neg hs.ne', if_neg (not_lt.2 hp.le), Int.toNat_natCast, if_pos hg']
      exact timesPower?_isSome hlt
  · exact finite_ofScientific?_of_nonpos x.negative (hs'.trans_lt (by decide)) hp

end ControlPlane.Double
