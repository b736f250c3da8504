import ControlPlane.Proofs.Text.Utf8
import ControlPlane.Text.Base64

/-!
# Base64: reading what was written

`Base64.decode_encode` says that the text of some bytes is read back as these bytes. The text is
taken apart into its groups of four symbols (`Base64.groups`), one for each three bytes.
-/

namespace ControlPlane.Base64

/-! ## Symbols -/

/-- The byte of the symbol of a number. -/
def symbolByte (n : Nat) : UInt8 :=
  UInt8.ofNat (symbol n).toNat

theorem symbol_toNat_lt : ∀ n < 64, (symbol n).toNat < 0x80 := by decide

theorem symbolByte_ne_pad : ∀ n < 64, symbolByte n ≠ pad := by decide

theorem value?_symbolByte : ∀ n < 64, value? (symbolByte n) = some n := by decide

theorem valueAt_symbolByte {n : Nat} (h : n < 64) (offset : Nat) :
    valueAt (symbolByte n) offset = .ok n := by
  rw [valueAt, value?_symbolByte n h]

/-- A symbol is one byte long. -/
theorem encodeChar_symbol {n : Nat} (h : n < 64) : Utf8.encodeChar (symbol n) = [symbolByte n] := by
  rw [Utf8.encodeChar, if_pos (symbol_toNat_lt n h), symbolByte]

/-! ## Groups -/

/-- The bytes of the text of some bytes, group by group. -/
def groups : Bytes → Bytes
  | a :: b :: c :: rest =>
    let n := a.toNat * 65536 + b.toNat * 256 + c.toNat
    symbolByte (n / 262144) :: symbolByte (n / 4096 % 64) :: symbolByte (n / 64 % 64)
      :: symbolByte (n % 64) :: groups rest
  | [a, b] =>
    let n := a.toNat * 1024 + b.toNat * 4
    [symbolByte (n / 4096), symbolByte (n / 64 % 64), symbolByte (n % 64), pad]
  | [a] =>
    let n := a.toNat * 16
    [symbolByte (n / 64), symbolByte (n % 64), pad, pad]
  | [] => []

theorem encode_encodeOnto (written : List Char) (bs : Bytes) :
    Utf8.encode (encodeOnto written bs).reverse = Utf8.encode written.reverse ++ groups bs := by
  fun_induction encodeOnto written bs with
  | case1 written a b c rest n ih =>
    have ha := a.toNat_lt
    have hb := b.toNat_lt
    have hc := c.toNat_lt
    rw [ih, groups]
    simp only [Utf8.encode, List.reverse_cons, List.flatMap_append, List.flatMap_cons,
      List.flatMap_nil, List.append_nil, List.append_assoc]
    rw [encodeChar_symbol (show n / 262144 < 64 by omega),
      encodeChar_symbol (Nat.mod_lt _ (by omega)), encodeChar_symbol (Nat.mod_lt _ (by omega)),
      encodeChar_symbol (Nat.mod_lt _ (by omega))]
    rfl
  | case2 written a b n =>
    have ha := a.toNat_lt
    have hb := b.toNat_lt
    rw [groups]
    simp only [Utf8.encode, List.reverse_cons, List.flatMap_append, List.flatMap_cons,
      List.flatMap_nil, List.append_nil, List.append_assoc]
    rw [encodeChar_symbol (show n / 4096 < 64 by omega),
      encodeChar_symbol (Nat.mod_lt _ (by omega)), encodeChar_symbol (Nat.mod_lt _ (by omega))]
    rfl
  | case3 written a n =>
    have ha := a.toNat_lt
    rw [groups]
    simp only [Utf8.encode, List.reverse_cons, List.flatMap_append, List.flatMap_cons,
      List.flatMap_nil, List.append_nil, List.append_assoc]
    rw [encodeChar_symbol (show n / 64 < 64 by omega), encodeChar_symbol (Nat.mod_lt _ (by omega))]
    rfl
  | case4 => rw [groups, List.append_nil]

/-- The bytes of a text are its groups. -/
theorem utf8_encode (bs : Bytes) : utf8 (encode bs) = groups bs := by
  rw [utf8, encode, String.toList_ofList, encode_encodeOnto]
  rfl

/-- A text is made of whole groups. -/
theorem length_groups (bs : Bytes) : (groups bs).length % 4 = 0 := by
  fun_induction groups bs with
  | case1 a b c rest n ih => simp only [List.length_cons]; omega
  | case2 | case3 | case4 => simp

/-! ## Reading groups -/

theorem lastGroup_symbolByte {n : Nat} (h : n < 64) (start index : Nat) (rest : Bytes) :
    lastGroup start index (symbolByte n :: rest) =
      (lastGroup start (index + 1) rest).map fun (symbols, fill) =>
        ((symbolByte n, n) :: symbols, fill) := by
  rw [lastGroup, if_neg (symbolByte_ne_pad n h), valueAt_symbolByte h]
  rcases lastGroup start (index + 1) rest with e | ⟨symbols, fill⟩ <;> rfl

theorem lastGroup_pad {start index : Nat} {rest : Bytes} (h : 2 ≤ index)
    (hr : rest.any (· ≠ pad) = false) :
    lastGroup start index (pad :: rest) = .ok ([], rest.length + 1) := by
  have hi : ¬(index < 2 ∨ rest.any (· ≠ pad) = true) := by
    rw [hr]
    simp only [Bool.false_eq_true, or_false]
    omega
  rw [lastGroup, if_pos rfl, if_neg hi]

theorem decodeLast_four {w x y z : Nat} (hw : w < 64) (hx : x < 64) (hy : y < 64) (hz : z < 64)
    (start : Nat) :
    decodeLast start [symbolByte w, symbolByte x, symbolByte y, symbolByte z] =
      .ok [UInt8.ofNat (w * 4 + x / 16), UInt8.ofNat (x % 16 * 16 + y / 4),
        UInt8.ofNat (y % 4 * 64 + z)] := by
  rw [decodeLast, lastGroup_symbolByte hw, lastGroup_symbolByte hx, lastGroup_symbolByte hy,
    lastGroup_symbolByte hz, lastGroup]
  simp [Except.map, bind, Except.bind, pure, Except.pure]

theorem decodeLast_three {w x y : Nat} (hw : w < 64) (hx : x < 64) (hy : y < 64)
    (hb : y % 4 = 0) (start : Nat) :
    decodeLast start [symbolByte w, symbolByte x, symbolByte y, pad] =
      .ok [UInt8.ofNat (w * 4 + x / 16), UInt8.ofNat (x % 16 * 16 + y / 4)] := by
  rw [decodeLast, lastGroup_symbolByte hw, lastGroup_symbolByte hx, lastGroup_symbolByte hy,
    lastGroup_pad (by omega) rfl]
  simp [Except.map, bind, Except.bind, pure, Except.pure, hb]

theorem decodeLast_two {w x : Nat} (hw : w < 64) (hx : x < 64) (hb : x % 16 = 0) (start : Nat) :
    decodeLast start [symbolByte w, symbolByte x, pad, pad] =
      .ok [UInt8.ofNat (w * 4 + x / 16)] := by
  rw [decodeLast, lastGroup_symbolByte hw, lastGroup_symbolByte hx, lastGroup_pad (by omega) rfl]
  simp [Except.map, bind, Except.bind, pure, Except.pure, hb]

/-- The groups of some bytes are read back as these bytes. -/
theorem decodeOnto_groups (start : Nat) (read bs : Bytes) :
    decodeOnto start read (groups bs) = .ok (read.reverse ++ bs) := by
  fun_induction groups bs generalizing start read with
  | case1 a b c rest n ih =>
    have ha := a.toNat_lt
    have hb := b.toNat_lt
    have hc := c.toNat_lt
    have h₁ : n / 262144 < 64 := by omega
    have h₂ : n / 4096 % 64 < 64 := Nat.mod_lt _ (by omega)
    have h₃ : n / 64 % 64 < 64 := Nat.mod_lt _ (by omega)
    have h₄ : n % 64 < 64 := Nat.mod_lt _ (by omega)
    have e₁ : UInt8.ofNat (n / 262144 * 4 + n / 4096 % 64 / 16) = a := by
      rw [show n / 262144 * 4 + n / 4096 % 64 / 16 = a.toNat by omega, UInt8.ofNat_toNat]
    have e₂ : UInt8.ofNat (n / 4096 % 64 % 16 * 16 + n / 64 % 64 / 4) = b := by
      rw [show n / 4096 % 64 % 16 * 16 + n / 64 % 64 / 4 = b.toNat by omega, UInt8.ofNat_toNat]
    have e₃ : UInt8.ofNat (n / 64 % 64 % 4 * 64 + n % 64) = c := by
      rw [show n / 64 % 64 % 4 * 64 + n % 64 = c.toNat by omega, UInt8.ofNat_toNat]
    -- the last four symbols are read apart from those before them
    cases hg : groups rest with
    | nil =>
      have hr : rest = [] := by
        unfold groups at hg
        split at hg <;> simp_all
      rw [decodeOnto, decodeLast_four h₁ h₂ h₃ h₄, e₁, e₂, e₃, hr]
      · rfl
      · simp
      · simp
    | cons g gs =>
      rw [decodeOnto, valueAt_symbolByte h₁, valueAt_symbolByte h₂, valueAt_symbolByte h₃,
        valueAt_symbolByte h₄]
      simp only [bind, Except.bind]
      rw [e₁, e₂, e₃, ← hg, ih]
      simp
  | case2 a b n =>
    have ha := a.toNat_lt
    have hb := b.toNat_lt
    have e₁ : UInt8.ofNat (n / 4096 * 4 + n / 64 % 64 / 16) = a := by
      rw [show n / 4096 * 4 + n / 64 % 64 / 16 = a.toNat by omega, UInt8.ofNat_toNat]
    have e₂ : UInt8.ofNat (n / 64 % 64 % 16 * 16 + n % 64 / 4) = b := by
      rw [show n / 64 % 64 % 16 * 16 + n % 64 / 4 = b.toNat by omega, UInt8.ofNat_toNat]
    rw [decodeOnto, decodeLast_three (by omega) (Nat.mod_lt _ (by omega))
      (Nat.mod_lt _ (by omega)) (by omega), e₁, e₂]
    · rfl
    · simp
    · simp
  | case3 a n =>
    have ha := a.toNat_lt
    have e₁ : UInt8.ofNat (n / 64 * 4 + n % 64 / 16) = a := by
      rw [show n / 64 * 4 + n % 64 / 16 = a.toNat by omega, UInt8.ofNat_toNat]
    rw [decodeOnto, decodeLast_two (by omega) (Nat.mod_lt _ (by omega)) (by omega), e₁]
    · rfl
    · simp
    · simp
  | case4 => rw [decodeOnto, List.append_nil]

/-- The text of some bytes is read back as these bytes. -/
theorem decode_encode (bs : Bytes) : decode (encode bs) = .ok bs := by
  have hs : straggler? (groups bs) = none := by
    rw [straggler?, if_neg (by have := length_groups bs; omega)]
  rw [decode, utf8_encode, hs]
  exact decodeOnto_groups 0 [] bs

end ControlPlane.Base64
