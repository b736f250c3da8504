import ControlPlane.Proofs.Json.Reader

/-!
# From a text to its shape: numbers fit

Whatever a text is, the numbers in its shape can be held (`Tree.fits_ofText`): integers in 64 bits,
and floating-point numbers are finite.
-/

namespace ControlPlane

/-! ## Numbers -/

theorem Double.finite_of_ofScientific? {negative : Bool} {s : Nat} {e : Int} {y : Double}
    (h : ofScientific? negative s e = some y) : y.Finite := by
  unfold ofScientific? at h
  dsimp only at h
  split at h
  · rw [← Option.some.inj h]
    exact (finite_ofNat s).withSign negative
  · split at h
    · rw [← Option.some.inj h]
      exact finite_shrink _ _
    · split at h
      · exact finite_of_ofRatio? (Nat.mul_pos (ratio_spec _).1 (ratio_spec _).1) h
      · simp at h

namespace Number

theorem fits_of_integer? {negative : Bool} {whole : List Nat} {i : Int}
    (h : integer? negative whole = some i) : Fits (.integer i) := by
  have hw : wordSize = 2 ^ 64 := rfl
  have hp : Nat.pow 2 63 = 2 ^ 63 := rfl
  unfold integer? at h
  rw [hw, hp] at h
  dsimp only at h
  show -(2 ^ 63 : Int) ≤ i ∧ i < 2 ^ 64
  split at h
  · split at h
    · simp at h
    · rw [Option.some.injEq] at h
      omega
  · split at h
    · rw [Option.some.injEq] at h
      omega
    · simp at h

theorem fits_of_real? {p : Numeral.Parts} {n : Number} (h : (real? p).map .real = some n) :
    n.Fits := by
  obtain ⟨x, hx, rfl⟩ := Option.map_eq_some_iff.1 h
  exact Double.finite_of_ofScientific? hx

/-- The number of any parts can be held. -/
theorem fits_of_ofParts? {p : Numeral.Parts} {n : Number} (h : ofParts? p = some n) : n.Fits := by
  unfold ofParts? at h
  split at h
  · split at h
    · rename_i hi
      rw [← Option.some.inj h]
      exact fits_of_integer? hi
    · exact fits_of_real? h
  · exact fits_of_real? h

end Number

namespace Tree

/-! ## Shapes -/

mutual

/-- Whether all numbers in a shape can be held. -/
def Fits : Tree → Prop
  | .number n => ∀ m, n = some m → m.Fits
  | .sequence items _ => FitsItems items
  | .map members _ => FitsMembers members
  | .nameless t => Fits t
  | .null | .bool _ | .string _ | .fault => True

/-- Whether all numbers in some shapes can be held. -/
def FitsItems : List Tree → Prop
  | [] => True
  | t :: rest => Fits t ∧ FitsItems rest

/-- Whether all numbers in some members can be held. -/
def FitsMembers : List (Spelled × Tree) → Prop
  | [] => True
  | (_, t) :: rest => Fits t ∧ FitsMembers rest

end

theorem fitsItems_iff {items : List Tree} : FitsItems items ↔ ∀ t ∈ items, t.Fits := by
  induction items with
  | nil => simp [FitsItems]
  | cons t rest ih => simp [FitsItems, ih]

theorem fitsMembers_iff {members : List (Spelled × Tree)} :
    FitsMembers members ↔ ∀ m ∈ members, m.2.Fits := by
  induction members with
  | nil => simp [FitsMembers]
  | cons m rest ih => simp [FitsMembers, ih]

theorem fits_ofWord {t : Tree} (ht : t.Fits) (letters : List Char) (text : Text) :
    (ofWord t letters text).1.Fits := by
  unfold ofWord
  split
  · exact ht
  · trivial

theorem fits_ofNumber (negative : Bool) (text : Text) : (ofNumber negative text).1.Fits := by
  unfold ofNumber
  split
  · exact fun m hm => Number.fits_of_ofParts? hm
  · trivial

theorem fits_sequence {read : List Tree} (h : ∀ t ∈ read, t.Fits) (whole : Bool) :
    (sequence read.reverse whole).Fits :=
  fitsItems_iff.2 fun t ht => h t (List.mem_reverse.1 ht)

theorem fits_map {read : List (Spelled × Tree)} (h : ∀ m ∈ read, m.2.Fits) (whole : Bool) :
    (map read.reverse whole).Fits :=
  fitsMembers_iff.2 fun m hm => h m (List.mem_reverse.1 hm)

mutual

theorem fits_ofTextFueled (fuel : Nat) (text : Text) : (ofTextFueled fuel text).1.Fits := by
  match fuel with
  | 0 => trivial
  | fuel + 1 =>
    rw [ofTextFueled]
    split
    · exact fits_ofWord (t := .null) trivial _ _
    · exact fits_ofWord (t := .bool true) trivial _ _
    · exact fits_ofWord (t := .bool false) trivial _ _
    · split <;> trivial
    · split
      · trivial
      · exact fits_itemsOnto fuel (by simp) _
    · split
      · trivial
      · exact fits_membersOnto fuel (by simp) _
      · exact fits_ofTextFueled fuel _
    · exact fits_ofNumber _ _
    · split
      · exact fits_ofNumber _ _
      · trivial
    · trivial
termination_by fuel

theorem fits_itemsOnto (fuel : Nat) {read : List Tree} (h : ∀ t ∈ read, t.Fits) (text : Text) :
    (itemsOnto fuel read text).1.Fits := by
  match fuel with
  | 0 => exact fits_sequence h false
  | fuel + 1 =>
    have hv := fits_ofTextFueled fuel text
    rw [itemsOnto]
    generalize ofTextFueled fuel text = v at hv ⊢
    obtain ⟨t, _ | rest⟩ := v
    · exact fits_sequence (List.forall_mem_cons.2 ⟨hv, h⟩) false
    · have h' : ∀ u ∈ t :: read, u.Fits := List.forall_mem_cons.2 ⟨hv, h⟩
      dsimp only
      split
      · exact fits_itemsOnto fuel h' _
      · exact fits_sequence h' true
      · exact fits_sequence h' false
termination_by fuel

theorem fits_membersOnto (fuel : Nat) {read : List (Spelled × Tree)} (h : ∀ m ∈ read, m.2.Fits)
    (text : Text) : (membersOnto fuel read text).1.Fits := by
  match fuel with
  | 0 => exact fits_map h false
  | fuel + 1 =>
    rw [membersOnto]
    split
    · exact fits_map h false
    · split
      · rename_i name _ _ _ rest _
        have hv := fits_ofTextFueled fuel rest
        generalize ofTextFueled fuel rest = v at hv ⊢
        obtain ⟨t, _ | rest⟩ := v
        · exact fits_map (List.forall_mem_cons.2 ⟨hv, h⟩) false
        · have h' : ∀ m ∈ (name, t) :: read, m.2.Fits := List.forall_mem_cons.2 ⟨hv, h⟩
          dsimp only
          split
          · split
            · exact fits_membersOnto fuel h' _
            · exact fits_map h' false
          · exact fits_map h' true
          · exact fits_map h' false
      · rename_i name _ _ _ _
        have hf : (name, Tree.fault).2.Fits := trivial
        exact fits_map (List.forall_mem_cons.2 ⟨hf, h⟩) false
termination_by fuel

end

/-- All numbers in the shape of a text can be held. -/
theorem fits_ofText (text : Text) : (ofText text).1.Fits :=
  fits_ofTextFueled _ text

end Tree

end ControlPlane
