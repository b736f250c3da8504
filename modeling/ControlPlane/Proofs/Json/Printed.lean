import ControlPlane.Proofs.Json.Number
import ControlPlane.Proofs.Number.Scientific

/-!
# Numbers in a text: reading what is printed

Every number is printed from proper parts (`Number.render_eq`, `Number.proper_parts`), and these
are the parts of a number again: an integer of 64 bits is read as itself, and a finite
floating-point number as a finite one (`Number.ofParts?_parts`).
-/

namespace ControlPlane.Number

open Numeral

/-! ## The parts that are printed -/

/-- The parts of a decimal written with a point. -/
def positionalParts (negative : Bool) (d : Decimal) : Parts :=
  if d.point ≤ 0 then
    ⟨negative, [0], some (List.replicate (-d.point).toNat 0 ++ d.digits), none⟩
  else
    ⟨negative, d.digits.take d.point.toNat ++
        List.replicate (d.point.toNat - d.digits.length) 0,
      some (if (d.digits.drop d.point.toNat).isEmpty then [0] else d.digits.drop d.point.toNat),
      none⟩

/-- The parts of a decimal written with an exponent. -/
def scientificParts (negative : Bool) (d : Decimal) : Parts :=
  ⟨negative, d.digits.take 1, if (d.digits.drop 1).isEmpty then none else some (d.digits.drop 1),
    some (d.point - 1)⟩

/-- The parts of a floating-point number. -/
def realParts (x : Double) : Parts :=
  if x.mantissa = 0 then ⟨x.negative, [0], some [0], none⟩
  else if layout.least < x.shortest.point && x.shortest.point ≤ layout.beyond then
    positionalParts x.negative x.shortest
  else scientificParts x.negative x.shortest

/-- The parts of a number. -/
def parts : Number → Parts
  | .integer i => ⟨decide (i < 0), digits 10 i.natAbs, none, none⟩
  | .real x => realParts x

theorem unsigned_positionalParts (negative : Bool) (d : Decimal) :
    (positionalParts negative d).unsigned = Double.positional d := by
  unfold positionalParts Double.positional
  split
  · simp [Parts.unsigned, Parts.fractionText, Parts.exponentText, digit]
  · rw [Parts.unsigned]
    simp only [Parts.fractionText, Parts.exponentText, List.append_nil, List.map_append,
      List.map_replicate, List.map_take, List.length_map, List.append_assoc, List.isEmpty_map,
      ← List.map_drop]
    congr 2
    split <;> rfl

theorem unsigned_scientificParts (negative : Bool) (d : Decimal) :
    (scientificParts negative d).unsigned = Double.scientific layout d := by
  unfold scientificParts Double.scientific
  rw [Parts.unsigned]
  simp only [← List.map_drop, ← List.map_take, List.isEmpty_map]
  split <;> simp [Parts.fractionText, Parts.exponentText, layout]

theorem unsigned_realParts (x : Double) :
    Double.render layout x = (if x.negative then ['-'] else []) ++ (realParts x).unsigned := by
  unfold Double.render realParts
  dsimp only
  by_cases hm : x.mantissa = 0
  · rw [if_pos hm, if_pos hm]
    rfl
  · rw [if_neg hm, if_neg hm]
    congr 1
    split
    · rw [unsigned_positionalParts]
    · rw [unsigned_scientificParts]

/-- A number is printed as a minus sign, if it is negative, and the text of its parts. -/
theorem render_eq (n : Number) :
    n.render = (if n.parts.negative then ['-'] else []) ++ n.parts.unsigned := by
  cases n with
  | integer i =>
    cases i with
    | ofNat n =>
      simp [render, parts, signed, decimal, Parts.unsigned, Parts.fractionText,
        Parts.exponentText]
    | negSucc n =>
      simp [render, parts, signed, decimal, Parts.unsigned, Parts.fractionText,
        Parts.exponentText, Int.negSucc_lt_zero]
  | real x =>
    have h : (realParts x).negative = x.negative := by
      unfold realParts positionalParts scientificParts
      split
      · rfl
      · split
        · split <;> rfl
        · rfl
    rw [render, parts, h, unsigned_realParts]

/-! ## They are proper -/

theorem proper_positionalParts {negative : Bool} {d : Decimal} (hn : d.digits ≠ [])
    (hd : ∀ a ∈ d.digits, a < 10) (hh : d.digits.head? ≠ some 0) :
    (positionalParts negative d).Proper := by
  unfold positionalParts
  split
  · refine ⟨by simp, by simp, .inl rfl, by simp [hn], ?_⟩
    intro ds hds a ha
    rw [Option.mem_some_iff] at hds
    subst hds
    rcases List.mem_append.1 ha with ha | ha
    · rw [List.eq_of_mem_replicate ha]
      omega
    · exact hd a ha
  · rename_i hp
    obtain ⟨k, hk⟩ : ∃ k, d.point.toNat = k + 1 := ⟨d.point.toNat - 1, by omega⟩
    obtain ⟨a, as, has⟩ := List.exists_cons_of_ne_nil hn
    rw [has] at hd hh ⊢
    refine ⟨by simp [hk], ?_, .inr ?_, ?_, ?_⟩
    · intro b hb
      rcases List.mem_append.1 hb with hb | hb
      · exact hd b (List.mem_of_mem_take hb)
      · rw [List.eq_of_mem_replicate hb]
        omega
    · rw [hk, List.take_succ_cons]
      exact hh
    · dsimp only
      split
      · simp
      · rename_i h
        rw [ne_eq, Option.some.injEq, ← List.isEmpty_iff]
        exact h
    · intro ds hds b hb
      rw [Option.mem_some_iff] at hds
      subst hds
      split at hb
      · rw [List.mem_singleton.1 hb]
        omega
      · exact hd b (List.mem_of_mem_drop hb)

theorem proper_scientificParts {negative : Bool} {d : Decimal} (hn : d.digits ≠ [])
    (hd : ∀ a ∈ d.digits, a < 10) (hh : d.digits.head? ≠ some 0) :
    (scientificParts negative d).Proper := by
  obtain ⟨a, as, has⟩ := List.exists_cons_of_ne_nil hn
  unfold scientificParts
  rw [has] at hd hh ⊢
  refine ⟨by simp, fun b hb => hd b (List.mem_of_mem_take hb), .inr hh, ?_, ?_⟩
  · dsimp only
    split
    · simp
    · rename_i h
      rw [ne_eq, Option.some.injEq, ← List.isEmpty_iff]
      exact h
  · intro ds hds b hb
    dsimp only at hds
    split at hds
    · simp at hds
    · rw [Option.mem_some_iff] at hds
      subst hds
      exact hd b (List.mem_of_mem_drop hb)

/-- The parts of every number are proper. -/
theorem proper_parts (n : Number) : n.parts.Proper := by
  cases n with
  | integer i =>
    refine ⟨digits_ne_nil _ _, fun d => digits_lt (by omega), ?_, by simp [parts],
      by simp [parts]⟩
    rcases Nat.eq_zero_or_pos i.natAbs with h | h
    · exact .inl (by rw [parts, h, digits_zero])
    · exact .inr (digits_head? (by omega) h)
  | real x =>
    rw [parts, realParts]
    split
    · exact ⟨by simp, by simp, .inl rfl, by simp, by simp⟩
    · rename_i hm
      obtain ⟨hn, hd, hh, -⟩ := Double.shortest_spec hm
      split
      · exact proper_positionalParts hn hd hh
      · exact proper_scientificParts hn hd hh

/-! ## Digits of a significand -/

theorem le_foldl_digits (ds : List Nat) (v : Nat) :
    v ≤ ds.foldl (fun n d => n * 10 + d) v := by
  induction ds generalizing v with
  | nil => exact le_refl v
  | cons d ds ih =>
    have h := ih (v * 10 + d)
    rw [List.foldl_cons]
    omega

/-- Digits before the point are all taken if they fit. -/
theorem foldl_addWhole (ds : List Nat) {v : Nat}
    (h : ds.foldl (fun n d => n * 10 + d) v < wordSize) :
    ds.foldl Significand.addWhole ⟨v, 0, false⟩ =
      ⟨ds.foldl (fun n d => n * 10 + d) v, 0, false⟩ := by
  induction ds generalizing v with
  | nil => rfl
  | cons d ds ih =>
    rw [List.foldl_cons] at h
    have hv := (le_foldl_digits ds (v * 10 + d)).trans_lt h
    have hs : Significand.addWhole ⟨v, 0, false⟩ d = ⟨v * 10 + d, 0, false⟩ := by
      rw [Significand.addWhole, if_neg]
      rintro (h | h)
      · exact lt_irrefl _ h
      · exact absurd hv (not_lt.2 h)
    rw [List.foldl_cons, hs, ih h, List.foldl_cons]

/-- So are digits behind the point. -/
theorem foldl_addFraction (ds : List Nat) {v : Nat} {e : Int}
    (h : ds.foldl (fun n d => n * 10 + d) v < wordSize) :
    ds.foldl Significand.addFraction ⟨v, e, false⟩ =
      ⟨ds.foldl (fun n d => n * 10 + d) v, e - ds.length, false⟩ := by
  induction ds generalizing v e with
  | nil => simp
  | cons d ds ih =>
    rw [List.foldl_cons] at h
    have hv := (le_foldl_digits ds (v * 10 + d)).trans_lt h
    have hs : Significand.addFraction ⟨v, e, false⟩ d = ⟨v * 10 + d, e - 1, false⟩ := by
      rw [Significand.addFraction, if_neg]
      rintro (h | h)
      · exact Bool.false_ne_true h
      · exact absurd hv (not_lt.2 h)
    rw [List.foldl_cons, hs, ih h, List.foldl_cons, List.length_cons]
    congr 1
    push_cast
    ring

/-- Whatever digits stand behind the point, the significand fits and no power is added. -/
theorem foldl_addFraction_le (ds : List Nat) {s : Significand} (hv : s.value < wordSize)
    (hp : s.power ≤ 0) :
    (ds.foldl Significand.addFraction s).value < wordSize ∧
      (ds.foldl Significand.addFraction s).power ≤ 0 := by
  induction ds generalizing s with
  | nil => exact ⟨hv, hp⟩
  | cons d ds ih =>
    rw [List.foldl_cons]
    refine ih ?_ ?_ <;> unfold Significand.addFraction <;> split
    · exact hv
    · rename_i h
      exact not_le.1 fun hle => h (.inr hle)
    · exact hp
    · show s.power - 1 ≤ 0
      omega

theorem wordSize_eq : wordSize = 2 ^ 64 := rfl

/-! ## From the parts to a number -/

/-- Whether a number can be held: integers in 64 bits, floating-point numbers if they are finite. -/
def Fits : Number → Prop
  | .integer i => -(2 ^ 63 : Int) ≤ i ∧ i < 2 ^ 64
  | .real x => x.Finite

/-- At most sixteen digits before the point and any digits behind it. -/
theorem finite_real?_of_short {p : Parts} {ds : List Nat} (hw : ∀ d ∈ p.whole, d < 10)
    (hl : p.whole.length ≤ 16) (hf : p.fraction = some ds) (hp : p.power = none) :
    ∃ y, real? p = some y ∧ y.Finite := by
  have hlt : ofDigits 10 p.whole < wordSize :=
    (ofDigits_lt hw).trans_le ((Nat.pow_le_pow_right (by omega) hl).trans (by decide))
  obtain ⟨hv, he⟩ := foldl_addFraction_le ds (s := ⟨ofDigits 10 p.whole, 0, false⟩) hlt le_rfl
  have h := Double.finite_ofScientific?_of_nonpos p.negative (wordSize_eq ▸ hv) he
  unfold real?
  rw [foldl_addWhole p.whole hlt, hf, hp]
  simpa only [Option.getD_some, Option.getD_none, Int.add_zero, ofDigits] using h

theorem finite_positionalParts {negative : Bool} {d : Decimal} (hd : ∀ a ∈ d.digits, a < 10)
    (hp : d.point ≤ 16) : ∃ y, real? (positionalParts negative d) = some y ∧ y.Finite := by
  unfold positionalParts
  split
  · exact finite_real?_of_short (by simp) (by simp) rfl rfl
  · refine finite_real?_of_short ?_ ?_ rfl rfl
    · intro b hb
      rcases List.mem_append.1 hb with hb | hb
      · exact hd b (List.mem_of_mem_take hb)
      · rw [List.eq_of_mem_replicate hb]
        omega
    · rw [List.length_append, List.length_take, List.length_replicate]
      omega

/-- Digits with an exponent are all taken. -/
theorem real?_scientificParts {negative : Bool} {d : Decimal} (hn : d.digits ≠ [])
    (hv : ofDigits 10 d.digits < wordSize) :
    real? (scientificParts negative d) =
      Double.ofScientific? negative (ofDigits 10 d.digits) (d.point - d.digits.length) := by
  obtain ⟨a, as, has⟩ := List.exists_cons_of_ne_nil hn
  have hf : (if (d.digits.drop 1).isEmpty then none else some (d.digits.drop 1)).getD [] = as := by
    rw [has, List.drop_one, List.tail_cons]
    cases as <;> rfl
  have ha : [a].foldl (fun n d => n * 10 + d) 0 < wordSize := by
    rw [has] at hv
    exact (le_foldl_digits as _).trans_lt hv
  unfold real? scientificParts
  dsimp only
  rw [hf, has, show List.take 1 (a :: as) = [a] from rfl, foldl_addWhole [a] ha,
    foldl_addFraction as (by rw [has] at hv; exact hv)]
  dsimp only
  rw [Option.getD_some, List.length_cons]
  congr 1
  push_cast
  ring

/-- A finite number is read back as a finite one. -/
theorem finite_realParts {x : Double} (hx : x.Finite) :
    ∃ y, real? (realParts x) = some y ∧ y.Finite := by
  unfold realParts
  split
  · exact finite_real?_of_short (by simp) (by simp) rfl rfl
  · rename_i hm
    obtain ⟨hn, hd, -, -, hs, -⟩ := Double.shortest_spec hm
    split
    · rename_i h
      simp only [Bool.and_eq_true, decide_eq_true_eq] at h
      exact finite_positionalParts hd h.2
    · rw [real?_scientificParts hn (hs.trans_lt (by decide))]
      exact Double.finite_ofScientific?_shortest hx hm

theorem integer?_parts {i : Int} (h : Fits (.integer i)) :
    integer? (decide (i < 0)) (digits 10 i.natAbs) = some i := by
  obtain ⟨h₁, h₂⟩ := h
  unfold integer?
  rw [ofDigits_digits _ (by omega)]
  have hw : wordSize = 2 ^ 64 := rfl
  have hp : Nat.pow 2 63 = 2 ^ 63 := rfl
  rw [hw, hp]
  dsimp only
  by_cases hi : i < 0
  · rw [if_pos (by simpa using hi), if_neg (by omega), Option.some.injEq]
    omega
  · rw [if_neg (by simpa using hi), if_pos (by omega), Option.some.injEq]
    omega

/-- The parts of a number that can be held are those of such a number, of the same integer if it is
one. -/
theorem ofParts?_parts {n : Number} (h : n.Fits) :
    ∃ m, ofParts? n.parts = some m ∧ m.Fits ∧ ∀ i, n = .integer i → m = n := by
  cases n with
  | integer i =>
    refine ⟨.integer i, ?_, h, fun _ _ => rfl⟩
    rw [ofParts?, parts]
    dsimp only
    rw [integer?_parts h]
  | real x =>
    obtain ⟨y, hy, hf⟩ := finite_realParts (x := x) h
    refine ⟨.real y, ?_, hf, fun i hi => by simp at hi⟩
    have hr : ofParts? (realParts x) = (real? (realParts x)).map .real := by
      unfold ofParts?
      split
      · rename_i hf hp
        exfalso
        revert hf hp
        unfold realParts positionalParts scientificParts
        split
        · simp
        · split
          · split <;> simp
          · simp
      · rfl
    rw [parts, hr, hy]
    rfl

end ControlPlane.Number
