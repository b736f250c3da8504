import ControlPlane.Text.Numeral
import Mathlib.Algebra.Ring.Nat

/-!
# Numerals: digits and numbers

`Numeral.ofDigits_digits` says that the digits of a number stand for the number;
`Numeral.lt_pow_length` and `Numeral.pow_length_le` say how many digits it has. Digits that are
written are read back, up to the first character that is none (`Numeral.takeDigits_map_digit`).
-/

namespace ControlPlane.Numeral

/-! ## Digits of a number -/

theorem digitsRev_of_lt {base n : Nat} (hb : 2 ≤ base) (hn : 0 < n) :
    digitsRev base n = n % base :: digitsRev base (n / base) := by
  rw [digitsRev, dif_neg (by omega)]

theorem digitsRev_zero (base : Nat) : digitsRev base 0 = [] := by
  rw [digitsRev, dif_pos (Or.inl rfl)]

theorem digits_zero (base : Nat) : digits base 0 = [0] := by
  rw [digits, digitsRev_zero]
  rfl

theorem digits_of_pos {base n : Nat} (hb : 2 ≤ base) (hn : 0 < n) :
    digits base n = (digitsRev base n).reverse := by
  rw [digits, digitsRev_of_lt hb hn]
  split
  case h_1 h => simp at h
  case h_2 => rfl

theorem digits_ne_nil (base n : Nat) : digits base n ≠ [] := by
  unfold digits
  split
  case h_1 => simp
  case h_2 h => exact h

theorem digitsRev_lt {base n d : Nat} (hb : 2 ≤ base) (h : d ∈ digitsRev base n) : d < base := by
  induction n using Nat.strongRecOn with
  | ind n ih =>
    rcases Nat.eq_zero_or_pos n with rfl | hn
    · rw [digitsRev_zero] at h
      simp at h
    · rw [digitsRev_of_lt hb hn, List.mem_cons] at h
      rcases h with rfl | h
      · exact Nat.mod_lt _ (by omega)
      · exact ih _ (Nat.div_lt_self hn (by omega)) h

/-- Digits are below the base. -/
theorem digits_lt {base n d : Nat} (hb : 2 ≤ base) (h : d ∈ digits base n) : d < base := by
  rcases Nat.eq_zero_or_pos n with rfl | hn
  · rw [digits_zero, List.mem_singleton] at h
    omega
  · rw [digits_of_pos hb hn, List.mem_reverse] at h
    exact digitsRev_lt hb h

theorem digitsRev_getLast? {base n : Nat} (hb : 2 ≤ base) :
    (digitsRev base n).getLast? ≠ some 0 := by
  induction n using Nat.strongRecOn with
  | ind n ih =>
    rcases Nat.eq_zero_or_pos n with rfl | hn
    · simp [digitsRev_zero]
    · rw [digitsRev_of_lt hb hn]
      rcases Nat.eq_zero_or_pos (n / base) with hz | hp
      · rw [hz, digitsRev_zero, List.getLast?_singleton, ne_eq, Option.some.injEq]
        have hlt : n < base := (Nat.div_eq_zero_iff_lt (show 0 < base by omega)).1 hz
        rw [Nat.mod_eq_of_lt hlt]
        omega
      · have h := ih (n / base) (Nat.div_lt_self hn (by omega))
        rw [digitsRev_of_lt hb hp] at h ⊢
        rwa [List.getLast?_cons_cons]

/-- A number that is not zero has no zero at its front. -/
theorem digits_head? {base n : Nat} (hb : 2 ≤ base) (hn : 0 < n) :
    (digits base n).head? ≠ some 0 := by
  rw [digits_of_pos hb hn, List.head?_reverse]
  exact digitsRev_getLast? hb

/-! ## The number of digits -/

theorem lt_pow_length_digitsRev {base : Nat} (n : Nat) (hb : 2 ≤ base) :
    n < base ^ (digitsRev base n).length := by
  induction n using Nat.strongRecOn with
  | ind n ih =>
    rcases Nat.eq_zero_or_pos n with rfl | hn
    · simp [digitsRev_zero]
    · have h := ih (n / base) (Nat.div_lt_self hn (by omega))
      rw [digitsRev_of_lt hb hn, List.length_cons, Nat.pow_succ]
      exact (Nat.div_lt_iff_lt_mul (show 0 < base by omega)).1 h

theorem pow_length_digitsRev_le {base n : Nat} (hb : 2 ≤ base) (hn : 0 < n) :
    base ^ ((digitsRev base n).length - 1) ≤ n := by
  induction n using Nat.strongRecOn with
  | ind n ih =>
    rw [digitsRev_of_lt hb hn, List.length_cons, Nat.add_sub_cancel]
    rcases Nat.eq_zero_or_pos (n / base) with hz | hp
    · rw [hz, digitsRev_zero, List.length_nil, Nat.pow_zero]
      exact hn
    · have h := ih (n / base) (Nat.div_lt_self hn (by omega)) hp
      rw [digitsRev_of_lt hb hp, List.length_cons, Nat.add_sub_cancel] at h
      rw [digitsRev_of_lt hb hp, List.length_cons, Nat.pow_succ]
      exact (Nat.le_div_iff_mul_le (by omega)).1 h

/-- A number is below the power of the base that its digits reach. -/
theorem lt_pow_length {base : Nat} (n : Nat) (hb : 2 ≤ base) :
    n < base ^ (digits base n).length := by
  rcases Nat.eq_zero_or_pos n with rfl | hn
  · rw [digits_zero, List.length_singleton, Nat.pow_one]
    omega
  · rw [digits_of_pos hb hn, List.length_reverse]
    exact lt_pow_length_digitsRev n hb

/-- A number that is not zero reaches the power of the base of its first digit. -/
theorem pow_length_le {base n : Nat} (hb : 2 ≤ base) (hn : 0 < n) :
    base ^ ((digits base n).length - 1) ≤ n := by
  rw [digits_of_pos hb hn, List.length_reverse]
  exact pow_length_digitsRev_le hb hn

/-- A number below a power of the base has no more digits than the power. -/
theorem length_digits_le {base n k : Nat} (hb : 2 ≤ base) (hk : 0 < k) (h : n < base ^ k) :
    (digits base n).length ≤ k := by
  rcases Nat.eq_zero_or_pos n with rfl | hn
  · rw [digits_zero, List.length_singleton]
    exact hk
  · have hp := Nat.lt_of_le_of_lt (pow_length_le hb hn) h
    have := (Nat.pow_lt_pow_iff_right (by omega)).1 hp
    omega

/-! ## The number of some digits -/

theorem ofDigits_append_singleton (base : Nat) (ds : List Nat) (d : Nat) :
    ofDigits base (ds ++ [d]) = ofDigits base ds * base + d := by
  simp [ofDigits]

theorem ofDigits_reverse_digitsRev {base : Nat} (n : Nat) (hb : 2 ≤ base) :
    ofDigits base (digitsRev base n).reverse = n := by
  induction n using Nat.strongRecOn with
  | ind n ih =>
    rcases Nat.eq_zero_or_pos n with rfl | hn
    · rw [digitsRev_zero]
      rfl
    · rw [digitsRev_of_lt hb hn, List.reverse_cons, ofDigits_append_singleton,
        ih _ (Nat.div_lt_self hn (by omega)), Nat.div_add_mod']

/-- The digits of a number stand for the number. -/
theorem ofDigits_digits {base : Nat} (n : Nat) (hb : 2 ≤ base) :
    ofDigits base (digits base n) = n := by
  rcases Nat.eq_zero_or_pos n with rfl | hn
  · rw [digits_zero]
    simp [ofDigits]
  · rw [digits_of_pos hb hn, ofDigits_reverse_digitsRev n hb]

theorem ofDigits_replicate_zero (base k : Nat) (ds : List Nat) :
    ofDigits base (List.replicate k 0 ++ ds) = ofDigits base ds := by
  induction k with
  | zero => rfl
  | succ k ih =>
    rw [List.replicate_succ, List.cons_append]
    simpa [ofDigits] using ih

/-- Zeros at the end of digits are a power of the base. -/
theorem ofDigits_append_replicate (base k : Nat) (ds : List Nat) :
    ofDigits base (ds ++ List.replicate k 0) = ofDigits base ds * base ^ k := by
  induction k with
  | zero => simp
  | succ k ih =>
    rw [List.replicate_succ', ← List.append_assoc, ofDigits_append_singleton, ih, Nat.pow_succ,
      Nat.add_zero, Nat.mul_assoc]

theorem ofDigits_lt {base : Nat} {ds : List Nat} (hd : ∀ d ∈ ds, d < base) :
    ofDigits base ds < base ^ ds.length := by
  have step : ∀ (ds : List Nat) (v : Nat), (∀ d ∈ ds, d < base) →
      ds.foldl (fun n d => n * base + d) v < (v + 1) * base ^ ds.length := by
    intro ds
    induction ds with
    | nil => intro v _; simp
    | cons d ds ih =>
      intro v hd
      have hd₀ := hd d List.mem_cons_self
      refine Nat.lt_of_lt_of_le (ih _ fun d h => hd d (List.mem_cons_of_mem _ h)) ?_
      rw [List.length_cons, Nat.pow_succ, Nat.mul_comm (base ^ ds.length), ← Nat.mul_assoc]
      have hb : v * base + d + 1 ≤ (v + 1) * base := by
        rw [Nat.add_mul]
        omega
      exact Nat.mul_le_mul_right _ hb
  have h := step ds 0 hd
  rwa [Nat.zero_add, Nat.one_mul] at h

/-! ## Written digits -/

theorem digit_toNat : ∀ d < 10, (digit d).toNat = 48 + d := by decide

theorem decimal?_digit : ∀ d < 10, decimal? (digit d) = some d := by decide

theorem decimal?_eq_some {c : Char} {d : Nat} : decimal? c = some d ↔ d < 10 ∧ c = digit d := by
  constructor
  · intro h
    unfold decimal? at h
    split at h
    · obtain rfl := Option.some.inj h
      refine ⟨by omega, ?_⟩
      rw [digit, if_pos (by omega), Nat.add_sub_cancel' (by omega), Char.ofNat_toNat]
    · cases h
  · rintro ⟨hd, rfl⟩
    exact decimal?_digit d hd

/-- A text that is digits throughout is that of their numbers. -/
theorem mapM_decimal?_eq_some {cs : List Char} {ds : List Nat} :
    cs.mapM decimal? = some ds ↔ cs = ds.map digit ∧ ∀ d ∈ ds, d < 10 := by
  induction cs generalizing ds with
  | nil =>
    cases ds with
    | nil => simp
    | cons d ds => simp
  | cons c cs ih =>
    rw [List.mapM_cons]
    constructor
    · intro h
      obtain ⟨d, hd, h⟩ := Option.bind_eq_some_iff.1 h
      obtain ⟨ds, hds, h⟩ := Option.bind_eq_some_iff.1 h
      obtain rfl := Option.some.inj h
      obtain ⟨hlt, rfl⟩ := decimal?_eq_some.1 hd
      obtain ⟨rfl, hlts⟩ := ih.1 hds
      exact ⟨rfl, List.forall_mem_cons.2 ⟨hlt, hlts⟩⟩
    · rintro ⟨hcs, hlts⟩
      cases ds with
      | nil => cases hcs
      | cons d ds =>
        obtain ⟨rfl, rfl⟩ := List.cons.inj hcs
        obtain ⟨hlt, hlts⟩ := List.forall_mem_cons.1 hlts
        rw [decimal?_digit d hlt, ih.2 ⟨rfl, hlts⟩]
        rfl

/-- Whether a text does not go on with a decimal digit. -/
def NoDigit (cs : List Char) : Prop :=
  ∀ c ∈ cs.head?, decimal? c = none

/-- Digits are read back up to what follows them. -/
theorem takeDigits_map_digit {limit : Nat} {ds : List Nat} (hd : ∀ d ∈ ds, d < 10)
    {rest : List Char} (hl : ds.length ≤ limit) (hr : ds.length = limit ∨ NoDigit rest) :
    takeDigits limit (ds.map digit ++ rest) = (ds, rest) := by
  induction ds generalizing limit with
  | nil =>
    cases limit with
    | zero => rfl
    | succ limit =>
      rcases hr with hr | hr
      · simp at hr
      · cases rest with
        | nil => rfl
        | cons c rest =>
          rw [List.map_nil, List.nil_append, takeDigits, hr c rfl]
  | cons d ds ih =>
    cases limit with
    | zero => simp at hl
    | succ limit =>
      simp only [List.length_cons, Nat.add_le_add_iff_right, Nat.add_right_cancel_iff] at hl hr
      rw [List.map_cons, List.cons_append, takeDigits, decimal?_digit d (hd d List.mem_cons_self)]
      dsimp only
      rw [ih (fun d h => hd d (List.mem_cons_of_mem _ h)) hl hr]

/-- The text of a number is made of digits, at least one. -/
theorem decimal_eq (n : Nat) : ∃ ds : List Nat, decimal n = ds.map digit ∧ ds ≠ [] ∧
    (∀ d ∈ ds, d < 10) ∧ ofDigits 10 ds = n :=
  ⟨digits 10 n, rfl, digits_ne_nil 10 n, fun _ => digits_lt (by omega),
    ofDigits_digits n (by omega)⟩

/-- So is a text that is filled up with zeros. -/
theorem padded_decimal {width n : Nat} (hw : 0 < width) (h : n < 10 ^ width) :
    ∃ ds : List Nat, padded width (decimal n) = ds.map digit ∧ ds.length = width ∧
      (∀ d ∈ ds, d < 10) ∧ ofDigits 10 ds = n := by
  have hl : (digits 10 n).length ≤ width := length_digits_le (by omega) hw h
  refine ⟨List.replicate (width - (digits 10 n).length) 0 ++ digits 10 n, ?_, ?_, ?_, ?_⟩
  · rw [padded, decimal, List.length_map, List.map_append, List.map_replicate]
    rfl
  · rw [List.length_append, List.length_replicate]
    omega
  · intro d hd
    rcases List.mem_append.1 hd with hd | hd
    · rw [List.eq_of_mem_replicate hd]
      omega
    · exact digits_lt (by omega) hd
  · rw [ofDigits_replicate_zero, ofDigits_digits n (by omega)]

end ControlPlane.Numeral
