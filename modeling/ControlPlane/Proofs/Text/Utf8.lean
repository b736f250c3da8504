import ControlPlane.Text.Utf8

/-!
# UTF-8: reading what was written

`Utf8.decode?_encode` says that the bytes of some characters are read back as these characters, and
`Utf8.decode?_append` that a well-formed text may be cut between two characters: what its front
reads as does not depend on what follows. A text that is cut inside a character is not well formed,
so every readable front of an encoded text is the encoding of a front (`Utf8.prefix_of_decode?`).
-/

namespace ControlPlane.Utf8

/-! ## The reader does not look back -/

/-- What was found before a byte stays below what is found with it. -/
theorem fresh_append (l found : List Symbol) (b : Nat) :
    Scan.fresh (l ++ found) b = ⟨(Scan.fresh l b).found ++ found, (Scan.fresh l b).pending⟩ := by
  unfold Scan.fresh
  split
  · rfl
  · cases Pending.start? b <;> rfl

theorem step_append (l found : List Symbol) (p : Option Pending) (byte : UInt8) :
    Scan.step ⟨l ++ found, p⟩ byte =
      ⟨(Scan.step ⟨l, p⟩ byte).found ++ found, (Scan.step ⟨l, p⟩ byte).pending⟩ := by
  cases p with
  | none => exact fresh_append l found _
  | some p =>
    simp only [Scan.step]
    split
    · split <;> rfl
    · exact fresh_append (.broken :: l) found _

theorem foldl_step_append (bs : Bytes) (l found : List Symbol) (p : Option Pending) :
    bs.foldl Scan.step ⟨l ++ found, p⟩ =
      ⟨(bs.foldl Scan.step ⟨l, p⟩).found ++ found, (bs.foldl Scan.step ⟨l, p⟩).pending⟩ := by
  induction bs generalizing l p with
  | nil => rfl
  | cons b bs ih => rw [List.foldl_cons, List.foldl_cons, step_append, ih]

/-- Bytes after a whole number of characters are read as if they stood alone. -/
theorem foldl_step_settled (bs : Bytes) (found : List Symbol) :
    bs.foldl Scan.step ⟨found, none⟩ =
      ⟨(bs.foldl Scan.step ⟨[], none⟩).found ++ found,
        (bs.foldl Scan.step ⟨[], none⟩).pending⟩ := by
  have h := foldl_step_append bs [] found none
  rwa [List.nil_append] at h

/-! ## One character -/

theorem step_start {byte : UInt8} {p : Pending} (found : List Symbol) (h : 0x80 ≤ byte.toNat)
    (hp : Pending.start? byte.toNat = some p) :
    Scan.step ⟨found, none⟩ byte = ⟨found, some p⟩ := by
  simp only [Scan.step, Scan.fresh, hp]
  rw [if_neg (by omega)]

theorem step_continue {byte : UInt8} {p : Pending} {bits : Nat} (found : List Symbol)
    (h : p.low ≤ byte.toNat ∧ byte.toNat ≤ p.high) (ho : 1 < p.owed)
    (hb : p.bits * 64 + (byte.toNat - 0x80) = bits) :
    Scan.step ⟨found, some p⟩ byte = ⟨found, some ⟨p.owed - 1, 0x80, 0xBF, bits⟩⟩ := by
  simp only [Scan.step]
  rw [if_pos h, if_neg (by omega), hb]

theorem step_complete {byte : UInt8} {p : Pending} {n : Nat} (found : List Symbol)
    (h : p.low ≤ byte.toNat ∧ byte.toNat ≤ p.high) (ho : p.owed = 1)
    (hn : p.bits * 64 + (byte.toNat - 0x80) = n) :
    Scan.step ⟨found, some p⟩ byte = ⟨.char (Char.ofNat n) :: found, none⟩ := by
  simp only [Scan.step]
  rw [if_pos h, if_pos (by omega), hn]

theorem toNat_ofNat_byte {n : Nat} (h : n < 256) : (UInt8.ofNat n).toNat = n := by
  rw [UInt8.toNat_ofNat', Nat.mod_eq_of_lt h]

theorem foldl_step_one {n : Nat} (found : List Symbol) (h : n < 0x80) :
    [UInt8.ofNat n].foldl Scan.step ⟨found, none⟩ = ⟨.char (Char.ofNat n) :: found, none⟩ := by
  simp only [List.foldl_cons, List.foldl_nil, Scan.step, Scan.fresh,
    toNat_ofNat_byte (show n < 256 by omega)]
  rw [if_pos h]

theorem foldl_step_two {n : Nat} (found : List Symbol) (h : 0x80 ≤ n) (h' : n < 0x800) :
    [UInt8.ofNat (0xC0 + n / 64), UInt8.ofNat (0x80 + n % 64)].foldl Scan.step ⟨found, none⟩ =
      ⟨.char (Char.ofNat n) :: found, none⟩ := by
  have e₀ : (UInt8.ofNat (0xC0 + n / 64)).toNat = 0xC0 + n / 64 := toNat_ofNat_byte (by omega)
  have e₁ : (UInt8.ofNat (0x80 + n % 64)).toNat = 0x80 + n % 64 := toNat_ofNat_byte (by omega)
  have s : Pending.start? (0xC0 + n / 64) = some ⟨1, 0x80, 0xBF, n / 64⟩ := by
    rw [Pending.start?, if_neg (by omega), if_pos (by omega), Nat.add_sub_cancel_left]
  rw [List.foldl_cons, step_start found (by omega) (by rw [e₀]; exact s), List.foldl_cons,
    step_complete (n := n) found (by rw [e₁]; dsimp only; omega) rfl
      (by rw [e₁]; dsimp only; omega),
    List.foldl_nil]

theorem foldl_step_three {n : Nat} (found : List Symbol) (h : 0x800 ≤ n) (h' : n < 0x10000)
    (hs : n < 0xD800 ∨ 0xDFFF < n) :
    [UInt8.ofNat (0xE0 + n / 4096), UInt8.ofNat (0x80 + n / 64 % 64),
        UInt8.ofNat (0x80 + n % 64)].foldl Scan.step ⟨found, none⟩ =
      ⟨.char (Char.ofNat n) :: found, none⟩ := by
  have e₀ : (UInt8.ofNat (0xE0 + n / 4096)).toNat = 0xE0 + n / 4096 := toNat_ofNat_byte (by omega)
  have e₁ : (UInt8.ofNat (0x80 + n / 64 % 64)).toNat = 0x80 + n / 64 % 64 :=
    toNat_ofNat_byte (by omega)
  have e₂ : (UInt8.ofNat (0x80 + n % 64)).toNat = 0x80 + n % 64 := toNat_ofNat_byte (by omega)
  -- the first byte fixes the bounds of the second one so that neither a shorter form nor a
  -- surrogate is read
  obtain ⟨p, s, ho, hb, hl⟩ : ∃ p, Pending.start? (0xE0 + n / 4096) = some p ∧ p.owed = 2 ∧
      p.bits = n / 4096 ∧ p.low ≤ 0x80 + n / 64 % 64 ∧ 0x80 + n / 64 % 64 ≤ p.high := by
    unfold Pending.start?
    rw [if_neg (by omega), if_neg (by omega)]
    split
    · exact ⟨_, rfl, rfl, by dsimp only; omega, by dsimp only; omega, by dsimp only; omega⟩
    · split
      · exact ⟨_, rfl, rfl, by dsimp only; omega, by dsimp only; omega, by dsimp only; omega⟩
      · rw [if_pos (by omega)]
        exact ⟨_, rfl, rfl, by dsimp only; omega, by dsimp only; omega, by dsimp only; omega⟩
  rw [List.foldl_cons, step_start found (by omega) (by rw [e₀]; exact s), List.foldl_cons,
    step_continue found (by rw [e₁]; exact hl) (by omega) (by rw [e₁, hb]), List.foldl_cons,
    step_complete (n := n) found (by rw [e₂]; dsimp only; omega) (by dsimp only; omega)
      (by rw [e₂]; dsimp only; omega), List.foldl_nil]

theorem foldl_step_four {n : Nat} (found : List Symbol) (h : 0x10000 ≤ n) (h' : n < 0x110000) :
    [UInt8.ofNat (0xF0 + n / 262144), UInt8.ofNat (0x80 + n / 4096 % 64),
        UInt8.ofNat (0x80 + n / 64 % 64), UInt8.ofNat (0x80 + n % 64)].foldl
          Scan.step ⟨found, none⟩ =
      ⟨.char (Char.ofNat n) :: found, none⟩ := by
  have e₀ : (UInt8.ofNat (0xF0 + n / 262144)).toNat = 0xF0 + n / 262144 :=
    toNat_ofNat_byte (by omega)
  have e₁ : (UInt8.ofNat (0x80 + n / 4096 % 64)).toNat = 0x80 + n / 4096 % 64 :=
    toNat_ofNat_byte (by omega)
  have e₂ : (UInt8.ofNat (0x80 + n / 64 % 64)).toNat = 0x80 + n / 64 % 64 :=
    toNat_ofNat_byte (by omega)
  have e₃ : (UInt8.ofNat (0x80 + n % 64)).toNat = 0x80 + n % 64 := toNat_ofNat_byte (by omega)
  obtain ⟨p, s, ho, hb, hl⟩ : ∃ p, Pending.start? (0xF0 + n / 262144) = some p ∧ p.owed = 3 ∧
      p.bits = n / 262144 ∧ p.low ≤ 0x80 + n / 4096 % 64 ∧
      0x80 + n / 4096 % 64 ≤ p.high := by
    unfold Pending.start?
    rw [if_neg (by omega), if_neg (by omega), if_neg (by omega), if_neg (by omega),
      if_neg (by omega)]
    split
    · exact ⟨_, rfl, rfl, by dsimp only; omega, by dsimp only; omega, by dsimp only; omega⟩
    · split
      · exact ⟨_, rfl, rfl, by dsimp only; omega, by dsimp only; omega, by dsimp only; omega⟩
      · rw [if_pos (by omega)]
        exact ⟨_, rfl, rfl, by dsimp only; omega, by dsimp only; omega, by dsimp only; omega⟩
  rw [List.foldl_cons, step_start found (by omega) (by rw [e₀]; exact s), List.foldl_cons,
    step_continue found (by rw [e₁]; exact hl) (by omega) (by rw [e₁, hb]), List.foldl_cons,
    step_continue found (by rw [e₂]; dsimp only; omega) (by dsimp only; omega) rfl,
    List.foldl_cons,
    step_complete (n := n) found (by rw [e₃]; dsimp only; omega) (by dsimp only; omega)
      (by rw [e₂, e₃]; dsimp only; omega), List.foldl_nil]

/-- The bytes of a character are read as the character. -/
theorem foldl_step_encodeChar (c : Char) (found : List Symbol) :
    (encodeChar c).foldl Scan.step ⟨found, none⟩ = ⟨.char c :: found, none⟩ := by
  have hc : Char.ofNat c.toNat = c := Char.ofNat_toNat c
  have hv : c.toNat < 0xD800 ∨ 0xDFFF < c.toNat ∧ c.toNat < 0x110000 := c.valid
  unfold encodeChar
  dsimp only
  split
  · rw [foldl_step_one found (by assumption), hc]
  · split
    · rw [foldl_step_two found (by omega) (by assumption), hc]
    · split
      · rw [foldl_step_three found (by omega) (by assumption) (by omega), hc]
      · rw [foldl_step_four found (by omega) (by omega), hc]

/-! ## Texts -/

theorem foldl_step_encode (cs : List Char) (found : List Symbol) :
    (encode cs).foldl Scan.step ⟨found, none⟩ = ⟨(cs.map Symbol.char).reverse ++ found, none⟩ := by
  induction cs generalizing found with
  | nil => rfl
  | cons c cs ih =>
    rw [encode, List.flatMap_cons, List.foldl_append, foldl_step_encodeChar, ← encode, ih]
    simp

/-- The bytes of some characters have one symbol for each of them. -/
theorem symbols_encode (cs : List Char) : symbols (encode cs) = cs.map .char := by
  rw [symbols, foldl_step_encode]
  simp [Scan.finish]

/-- What follows whole characters is read on its own. -/
theorem symbols_append {as bs : Bytes} (h : (as.foldl Scan.step ⟨[], none⟩).pending = none) :
    symbols (as ++ bs) = symbols as ++ symbols bs := by
  rcases hs : as.foldl Scan.step ⟨[], none⟩ with ⟨found, p⟩
  rw [hs] at h
  dsimp only at h
  subst h
  simp only [symbols, List.foldl_append, hs]
  rw [foldl_step_settled bs found]
  simp only [Scan.finish]
  cases (bs.foldl Scan.step ⟨[], none⟩).pending <;> simp

theorem mapM_char? {ss : List Symbol} {cs : List Char} :
    ss.mapM Symbol.char? = some cs ↔ ss = cs.map .char := by
  induction ss generalizing cs with
  | nil => cases cs <;> simp
  | cons s ss ih =>
    rw [List.mapM_cons]
    cases s with
    | broken => cases cs <;> simp [Symbol.char?]
    | char c =>
      simp only [Symbol.char?, Option.bind_eq_bind, Option.bind_some, Option.bind_eq_some_iff,
        Option.pure_def, Option.some.injEq, ih]
      constructor
      · rintro ⟨ds, rfl, rfl⟩
        rfl
      · intro h
        cases cs with
        | nil => simp at h
        | cons d cs =>
          rw [List.map_cons, List.cons.injEq, Symbol.char.injEq] at h
          exact ⟨cs, h.2, by rw [h.1]⟩

/-- A text is well formed if all its symbols are characters. -/
theorem decode?_eq_some {bs : Bytes} {cs : List Char} :
    decode? bs = some cs ↔ symbols bs = cs.map .char :=
  mapM_char?

/-- The bytes of some characters are read back as these characters. -/
theorem decode?_encode (cs : List Char) : decode? (encode cs) = some cs :=
  decode?_eq_some.2 (symbols_encode cs)

/-- A well-formed text does not end inside a character. -/
theorem settled_of_decode? {bs : Bytes} {cs : List Char} (h : decode? bs = some cs) :
    (bs.foldl Scan.step ⟨[], none⟩).pending = none := by
  have hs := decode?_eq_some.1 h
  unfold symbols Scan.finish at hs
  split at hs
  · assumption
  · have hb : Symbol.broken ∈ cs.map Symbol.char := by
      rw [← hs]
      simp
    simp at hb

/-- What a well-formed text is followed by is read on its own. -/
theorem decode?_append {as bs : Bytes} {cs ds : List Char} (ha : decode? as = some cs)
    (hb : decode? bs = some ds) : decode? (as ++ bs) = some (cs ++ ds) := by
  rw [decode?_eq_some, symbols_append (settled_of_decode? ha), decode?_eq_some.1 ha,
    decode?_eq_some.1 hb, List.map_append]

/-- A well-formed front of an encoded text reads as a front of the text. -/
theorem prefix_of_decode? {as bs : Bytes} {cs ds : List Char} (h : as ++ bs = encode ds)
    (ha : decode? as = some cs) : ∃ es, ds = cs ++ es ∧ decode? bs = some es := by
  have hs : symbols as ++ symbols bs = ds.map .char := by
    rw [← symbols_append (settled_of_decode? ha), h, symbols_encode]
  rw [decode?_eq_some.1 ha] at hs
  obtain ⟨xs, ys, hd, hx, hy⟩ := List.map_eq_append_iff.1 hs.symm
  obtain rfl : xs = cs := List.map_inj_right (fun _ _ => Symbol.char.inj) |>.1 hx
  exact ⟨ys, hd, decode?_eq_some.2 hy.symm⟩

/-! ## Bytes of texts -/

theorem step_ne_start (s : Scan) (byte : UInt8) :
    (s.step byte).found ≠ [] ∨ (s.step byte).pending ≠ none := by
  have fresh : ∀ found b,
      (Scan.fresh found b).found ≠ [] ∨ (Scan.fresh found b).pending ≠ none := by
    intro found b
    unfold Scan.fresh
    split
    · exact .inl (List.cons_ne_nil _ _)
    · split
      · exact .inr (Option.some_ne_none _)
      · exact .inl (List.cons_ne_nil _ _)
  unfold Scan.step
  dsimp only
  split
  · exact fresh _ _
  · split
    · split
      · exact .inl (List.cons_ne_nil _ _)
      · exact .inr (Option.some_ne_none _)
    · exact fresh _ _

/-- Only the empty text reads as nothing. -/
theorem eq_nil_of_symbols {bs : Bytes} (h : symbols bs = []) : bs = [] := by
  rcases List.eq_nil_or_concat bs with rfl | ⟨as, b, rfl⟩
  · rfl
  · exfalso
    have hs := step_ne_start (as.foldl Scan.step ⟨[], none⟩) b
    rw [List.concat_eq_append, symbols, List.foldl_append, List.foldl_cons, List.foldl_nil] at h
    unfold Scan.finish at h
    split at h
    · rename_i hp
      exact hs.elim (fun hf => hf (List.reverse_eq_nil_iff.1 h)) fun hn => hn hp
    · simp at h

theorem eq_nil_of_decode? {bs : Bytes} (h : decode? bs = some []) : bs = [] :=
  eq_nil_of_symbols (decode?_eq_some.1 h)

/-- A byte of a character is the character itself, or it is one of several above all characters of
one byte. -/
theorem toNat_of_mem_encodeChar {c : Char} {b : UInt8} (h : b ∈ encodeChar c) :
    b.toNat = c.toNat ∨ 0x80 ≤ b.toNat := by
  have hv : c.toNat < 0xD800 ∨ 0xDFFF < c.toNat ∧ c.toNat < 0x110000 := c.valid
  unfold encodeChar at h
  dsimp only at h
  split at h
  · obtain rfl := List.mem_singleton.1 h
    exact .inl (toNat_ofNat_byte (by omega))
  · right
    split at h
    · simp only [List.mem_cons, List.not_mem_nil, or_false] at h
      rcases h with rfl | rfl <;> rw [toNat_ofNat_byte (by omega)] <;> omega
    · split at h
      · simp only [List.mem_cons, List.not_mem_nil, or_false] at h
        rcases h with rfl | rfl | rfl <;> rw [toNat_ofNat_byte (by omega)] <;> omega
      · simp only [List.mem_cons, List.not_mem_nil, or_false] at h
        rcases h with rfl | rfl | rfl | rfl <;> rw [toNat_ofNat_byte (by omega)] <;> omega

end ControlPlane.Utf8
