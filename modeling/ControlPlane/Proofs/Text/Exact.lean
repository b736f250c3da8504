import ControlPlane.Proofs.Except
import ControlPlane.Proofs.Text.Base64
import Mathlib.Algebra.Ring.Nat
import Mathlib.Tactic.SplitIfs

/-!
# Only what is written is read

The readers of UTF-8 and of base64 accept no second spelling. `Utf8.decode?_iff`: the bytes that
read as some characters are the bytes that these characters are written with.
`Base64.decode_iff`: the text that reads as some bytes is the text these bytes are written as, with
its fill characters and with nothing in the bits that belong to no byte.
-/

namespace ControlPlane

namespace Utf8

/-! ## The bytes of a character under way -/

/-- The last bytes of a character of several, when as many are owed. -/
def tail : (owed : Nat) → (n : Nat) → Bytes
  | 0, _ => []
  | owed + 1, n => UInt8.ofNat (0x80 + n / 64 ^ owed % 64) :: tail owed n

/-- A byte that carries the next six bits of a number is the first of those that are owed. -/
theorem cons_tail {b : UInt8} {n owed : Nat} (hb : 0x80 ≤ b.toNat)
    (h : n / 64 ^ owed % 64 = b.toNat - 0x80) : b :: tail owed n = tail (owed + 1) n := by
  rw [tail, h, show 0x80 + (b.toNat - 0x80) = b.toNat by omega, UInt8.ofNat_toNat]

/-- What is found stays found. -/
theorem mem_finish_of_mem_found {s : Symbol} (bs : Bytes) (found : List Symbol)
    (p : Option Pending) (h : s ∈ found) : s ∈ (bs.foldl Scan.step ⟨found, p⟩).finish := by
  have ha := foldl_step_append bs [] found p
  rw [List.nil_append] at ha
  rw [ha]
  unfold Scan.finish
  split <;> simp [h]

/-- A byte that does not continue the character under way leaves a broken run behind it. -/
theorem broken_of_breaks_off {p : Pending} {byte : UInt8} (rest : Bytes) (found : List Symbol)
    (h : ¬(p.low ≤ byte.toNat ∧ byte.toNat ≤ p.high)) :
    Symbol.broken ∈ (rest.foldl Scan.step (Scan.step ⟨found, some p⟩ byte)).finish := by
  have hs : Scan.step ⟨found, some p⟩ byte = Scan.fresh (.broken :: found) byte.toNat := by
    simp only [Scan.step]
    rw [if_neg h]
  have hm : Symbol.broken ∈ (Scan.step ⟨found, some p⟩ byte).found := by
    rw [hs, ← List.nil_append (Symbol.broken :: found), fresh_append]
    simp
  exact mem_finish_of_mem_found rest _ _ hm

/-- A character under way that nothing breaks off is completed by the last bytes of a number that
begins with the bits read so far. -/
theorem completed {bs : Bytes} {p : Pending} (found : List Symbol) (ho : 1 ≤ p.owed)
    (hl : 0x80 ≤ p.low) (hh : p.high ≤ 0xBF)
    (h : Symbol.broken ∉ (bs.foldl Scan.step ⟨found, some p⟩).finish) :
    ∃ n rest, bs = tail p.owed n ++ rest ∧ n / 64 ^ p.owed = p.bits ∧
      p.low ≤ 0x80 + n / 64 ^ (p.owed - 1) % 64 ∧ 0x80 + n / 64 ^ (p.owed - 1) % 64 ≤ p.high := by
  obtain ⟨owed, low, high, bits⟩ := p
  dsimp only at ho hl hh ⊢
  obtain ⟨k, rfl⟩ : ∃ k, owed = k + 1 := ⟨owed - 1, by omega⟩
  -- the bytes still owed are read one by one, from the bounds that the first byte has set on
  induction k generalizing bs low high bits with
  | zero =>
    cases bs with
    | nil => simp [Scan.finish] at h
    | cons b rest =>
      rw [List.foldl_cons] at h
      by_cases hb : low ≤ b.toNat ∧ b.toNat ≤ high
      · have hq : (bits * 64 + (b.toNat - 0x80)) / 64 ^ 0 % 64 = b.toNat - 0x80 := by
          rw [Nat.pow_zero, Nat.div_one]
          omega
        refine ⟨_, rest, congrArg (· ++ rest) (cons_tail (by omega) hq), ?_, ?_⟩
        · rw [Nat.pow_one]
          omega
        · rw [Nat.add_sub_cancel, hq]
          omega
      · exact absurd (broken_of_breaks_off (p := ⟨1, low, high, bits⟩) rest found hb) h
  | succ k ih =>
    cases bs with
    | nil => simp [Scan.finish] at h
    | cons b rest =>
      rw [List.foldl_cons] at h
      by_cases hb : low ≤ b.toNat ∧ b.toNat ≤ high
      · rw [step_continue (p := ⟨k + 2, low, high, bits⟩) found hb
          (show 1 < k + 2 by omega) rfl] at h
        obtain ⟨n, rest, rfl, hn, -, -⟩ :=
          ih 0x80 0xBF _ (Nat.le_refl _) (Nat.le_refl _) (by omega) h
        dsimp only at hn
        have hq : n / 64 ^ (k + 1) % 64 = b.toNat - 0x80 := by omega
        refine ⟨n, rest, congrArg (· ++ rest) (cons_tail (by omega) hq), ?_, ?_⟩
        · rw [Nat.pow_succ, ← Nat.div_div_eq_div_mul, hn]
          omega
        · rw [Nat.add_sub_cancel, hq]
          omega
      · exact absurd (broken_of_breaks_off (p := ⟨k + 2, low, high, bits⟩) rest found hb) h

/-- What a first byte promises, by the number of bytes it begins. The bounds of the byte after it
keep out shorter spellings, surrogates and numbers that are too large. -/
theorem start?_cases {b : Nat} {p : Pending} (h : Pending.start? b = some p) :
    (0x80 ≤ p.low ∧ p.high ≤ 0xBF) ∧
      ((p.owed = 1 ∧ b = 0xC0 + p.bits ∧ 2 ≤ p.bits ∧ p.bits < 32) ∨
        (p.owed = 2 ∧ b = 0xE0 + p.bits ∧ p.bits < 16 ∧ (p.bits = 0 → p.low = 0xA0) ∧
          (p.bits = 13 → p.high = 0x9F)) ∨
        (p.owed = 3 ∧ b = 0xF0 + p.bits ∧ p.bits ≤ 4 ∧ (p.bits = 0 → p.low = 0x90) ∧
          (p.bits = 4 → p.high = 0x8F))) := by
  unfold Pending.start? at h
  split_ifs at h <;> obtain rfl := Option.some.inj h <;> dsimp only <;> omega

theorem toNat_ofNat_char {n : Nat} (h : n < 0xD800 ∨ 0xDFFF < n ∧ n < 0x110000) :
    (Char.ofNat n).toNat = n := by
  rw [Char.ofNat, dif_pos h]
  rfl

/-- A character of several bytes is a first byte, and then what it owes. -/
theorem encodeChar_eq_cons_tail {n owed first : Nat} (hn : n < 0xD800 ∨ 0xDFFF < n ∧ n < 0x110000)
    (h : (owed = 1 ∧ first = 0xC0 ∧ 0x80 ≤ n ∧ n < 0x800) ∨
      (owed = 2 ∧ first = 0xE0 ∧ 0x800 ≤ n ∧ n < 0x10000) ∨
      (owed = 3 ∧ first = 0xF0 ∧ 0x10000 ≤ n)) :
    encodeChar (Char.ofNat n) = UInt8.ofNat (first + n / 64 ^ owed) :: tail owed n := by
  rw [encodeChar, toNat_ofNat_char hn, if_neg (by omega)]
  rcases h with ⟨rfl, rfl, hl, hu⟩ | ⟨rfl, rfl, hl, hu⟩ | ⟨rfl, rfl, hl⟩
  · rw [if_pos hu]
    simp [tail]
  · rw [if_neg (by omega), if_pos hu]
    simp [tail]
  · rw [if_neg (by omega), if_neg (by omega)]
    simp [tail]

/-- A text in which nothing is broken begins with the bytes of a character. -/
theorem exists_encodeChar_append {bs : Bytes} (hb : bs ≠ []) (h : Symbol.broken ∉ symbols bs) :
    ∃ c rest, bs = encodeChar c ++ rest := by
  obtain ⟨b, rest, rfl⟩ := List.exists_cons_of_ne_nil hb
  have hlt := b.toNat_lt
  rw [symbols, List.foldl_cons] at h
  by_cases ha : b.toNat < 0x80
  · refine ⟨Char.ofNat b.toNat, rest, ?_⟩
    rw [encodeChar, toNat_ofNat_char (by omega), if_pos ha, UInt8.ofNat_toNat]
    rfl
  cases hp : Pending.start? b.toNat with
  | none =>
    have hs : Scan.step ⟨[], none⟩ b = ⟨[.broken], none⟩ := by
      simp only [Scan.step, Scan.fresh, hp]
      rw [if_neg ha]
    rw [hs] at h
    exact absurd (mem_finish_of_mem_found rest _ _ (List.mem_singleton.2 rfl)) h
  | some p =>
    rw [step_start [] (by omega) hp] at h
    obtain ⟨⟨hl, hh⟩, hc⟩ := start?_cases hp
    obtain ⟨n, rest, rfl, hn, hlow, hhigh⟩ := completed [] (by omega) hl hh h
    have hb : b = UInt8.ofNat (b.toNat - p.bits + n / 64 ^ p.owed) := by
      rw [hn, show b.toNat - p.bits + p.bits = b.toNat by omega, UInt8.ofNat_toNat]
    -- the number of bytes and the bounds of the second one say in which range the number lies
    have hr : (n < 0xD800 ∨ 0xDFFF < n ∧ n < 0x110000) ∧
        ((p.owed = 1 ∧ b.toNat - p.bits = 0xC0 ∧ 0x80 ≤ n ∧ n < 0x800) ∨
          (p.owed = 2 ∧ b.toNat - p.bits = 0xE0 ∧ 0x800 ≤ n ∧ n < 0x10000) ∨
          (p.owed = 3 ∧ b.toNat - p.bits = 0xF0 ∧ 0x10000 ≤ n)) := by
      rcases hc with ⟨ho, hc⟩ | ⟨ho, hc⟩ | ⟨ho, hc⟩ <;> rw [ho] at hn hlow hhigh <;>
        simp only [Nat.reducePow, Nat.reduceSub] at hn hlow hhigh <;> omega
    refine ⟨Char.ofNat n, rest, ?_⟩
    rw [encodeChar_eq_cons_tail hr.1 hr.2, ← hb]
    rfl

/-- Only the bytes of some characters are read as these characters. -/
theorem eq_encode_of_decode? {bs : Bytes} {cs : List Char} (h : decode? bs = some cs) :
    bs = encode cs := by
  have hs := decode?_eq_some.1 h
  have hb : Symbol.broken ∉ symbols bs := by
    rw [hs]
    simp
  induction cs generalizing bs with
  | nil => exact eq_nil_of_decode? h
  | cons c cs ih =>
    have hne : bs ≠ [] := by
      rintro rfl
      simp [symbols, Scan.finish] at hs
    obtain ⟨d, rest, rfl⟩ := exists_encodeChar_append hne hb
    have hd : symbols (encodeChar d ++ rest) = .char d :: symbols rest := by
      rw [symbols_append (by rw [foldl_step_encodeChar])]
      simp [symbols, foldl_step_encodeChar, Scan.finish]
    rw [hd] at hs hb
    obtain ⟨hc, hr⟩ := List.cons.inj hs
    obtain rfl := Symbol.char.inj hc
    rw [encode, List.flatMap_cons, ← encode,
      ← ih (decode?_eq_some.2 hr) hr (List.not_mem_of_not_mem_cons hb)]

/-- The bytes that read as some characters are those that the characters are written with. -/
theorem decode?_iff {bs : Bytes} {cs : List Char} : decode? bs = some cs ↔ bs = encode cs :=
  ⟨eq_encode_of_decode?, fun h => h ▸ decode?_encode cs⟩

end Utf8

/-- Texts of the same bytes are the same. -/
theorem utf8_inj {s t : String} : utf8 s = utf8 t ↔ s = t := by
  constructor
  · intro h
    have hd := Utf8.decode?_encode s.toList
    rw [show Utf8.encode s.toList = Utf8.encode t.toList from h, Utf8.decode?_encode] at hd
    exact String.toList_inj.1 (Option.some.inj hd).symm
  · rintro rfl
    rfl

namespace Base64

/-! ## Symbols -/

theorem symbolByte_of_value? {byte : UInt8} {n : Nat} (h : value? byte = some n) :
    byte = symbolByte n ∧ n < 64 := by
  have all : ∀ b < 256, ∀ m ∈ value? (UInt8.ofNat b),
      UInt8.ofNat b = symbolByte m ∧ m < 64 := by
    decide +kernel
  have hb := all byte.toNat byte.toNat_lt n
  rw [UInt8.ofNat_toNat] at hb
  exact hb h

/-- A symbol is read only where it stands. -/
theorem valueAt_eq_ok {byte : UInt8} {offset n : Nat} (h : valueAt byte offset = .ok n) :
    byte = symbolByte n ∧ n < 64 := by
  unfold valueAt at h
  split at h
  · rename_i m hm
    obtain rfl := Except.ok.inj h
    exact symbolByte_of_value? hm
  · cases h

/-! ## Groups -/

/-- What a last group was read from: its symbols, and then fill characters. -/
theorem lastGroup_eq_ok {start index : Nat} {group : Bytes} {symbols : List (UInt8 × Nat)}
    {fill : Nat} (h : lastGroup start index group = .ok (symbols, fill)) :
    group = symbols.map Prod.fst ++ List.replicate fill pad ∧
      ∀ s ∈ symbols, s.1 = symbolByte s.2 ∧ s.2 < 64 := by
  induction group generalizing index symbols fill with
  | nil =>
    cases h
    exact ⟨rfl, by simp⟩
  | cons byte rest ih =>
    rw [lastGroup] at h
    split at h
    · rename_i hp
      split at h
      · cases h
      · rename_i hr
        obtain ⟨rfl, rfl⟩ := Prod.mk.inj (Except.ok.inj h)
        have hall : ∀ b ∈ rest, b = pad := by simpa using (not_or.1 hr).2
        refine ⟨?_, by simp⟩
        rw [hp, List.map_nil, List.nil_append, List.replicate_succ, ← List.eq_replicate_of_mem hall]
    · obtain ⟨n, hn, h⟩ := Except.bind_eq_ok.1 h
      obtain ⟨⟨ss, f⟩, hs, h⟩ := Except.bind_eq_ok.1 h
      obtain ⟨rfl, rfl⟩ := Prod.mk.inj (Except.ok.inj h)
      obtain ⟨hrest, hall⟩ := ih hs
      refine ⟨by rw [hrest]; rfl, ?_⟩
      rintro s (_ | ⟨_, hmem⟩)
      · exact valueAt_eq_ok hn
      · exact hall s hmem

/-- The bytes that some symbols are read as are written with these symbols. -/
theorem groups_three {a b c d : Nat} (ha : a < 64) (hb : b < 64) (hc : c < 64) (hd : d < 64)
    (rest : Bytes) :
    groups (UInt8.ofNat (a * 4 + b / 16) :: UInt8.ofNat (b % 16 * 16 + c / 4)
      :: UInt8.ofNat (c % 4 * 64 + d) :: rest) =
      symbolByte a :: symbolByte b :: symbolByte c :: symbolByte d :: groups rest := by
  have hn : (a * 4 + b / 16) * 65536 + (b % 16 * 16 + c / 4) * 256 + (c % 4 * 64 + d) =
      a * 262144 + b * 4096 + c * 64 + d := by omega
  simp only [groups, Utf8.toNat_ofNat_byte (show a * 4 + b / 16 < 256 by omega),
    Utf8.toNat_ofNat_byte (show b % 16 * 16 + c / 4 < 256 by omega),
    Utf8.toNat_ofNat_byte (show c % 4 * 64 + d < 256 by omega), hn]
  rw [show (a * 262144 + b * 4096 + c * 64 + d) / 262144 = a by omega,
    show (a * 262144 + b * 4096 + c * 64 + d) / 4096 % 64 = b by omega,
    show (a * 262144 + b * 4096 + c * 64 + d) / 64 % 64 = c by omega,
    show (a * 262144 + b * 4096 + c * 64 + d) % 64 = d by omega]

theorem groups_two {a b c : Nat} (ha : a < 64) (hb : b < 64) (hc : c < 64) (h : c % 4 = 0) :
    groups [UInt8.ofNat (a * 4 + b / 16), UInt8.ofNat (b % 16 * 16 + c / 4)] =
      [symbolByte a, symbolByte b, symbolByte c, pad] := by
  have hn : (a * 4 + b / 16) * 1024 + (b % 16 * 16 + c / 4) * 4 = a * 4096 + b * 64 + c := by
    omega
  simp only [groups, Utf8.toNat_ofNat_byte (show a * 4 + b / 16 < 256 by omega),
    Utf8.toNat_ofNat_byte (show b % 16 * 16 + c / 4 < 256 by omega), hn]
  rw [show (a * 4096 + b * 64 + c) / 4096 = a by omega,
    show (a * 4096 + b * 64 + c) / 64 % 64 = b by omega,
    show (a * 4096 + b * 64 + c) % 64 = c by omega]

theorem groups_one {a b : Nat} (ha : a < 64) (hb : b < 64) (h : b % 16 = 0) :
    groups [UInt8.ofNat (a * 4 + b / 16)] = [symbolByte a, symbolByte b, pad, pad] := by
  have hn : (a * 4 + b / 16) * 16 = a * 64 + b := by omega
  simp only [groups, Utf8.toNat_ofNat_byte (show a * 4 + b / 16 < 256 by omega), hn]
  rw [show (a * 64 + b) / 64 = a by omega, show (a * 64 + b) % 64 = b by omega]

/-- A last group is read only if it is filled up to four, and if its last symbol carries no bits of
its own. -/
theorem decodeLast_eq_ok {start : Nat} {group read : Bytes} (hl : group.length ≤ 4)
    (h : decodeLast start group = .ok read) : group = groups read := by
  obtain ⟨⟨symbols, fill⟩, hs, h'⟩ := Except.bind_eq_ok.1 h
  obtain ⟨rfl, hall⟩ := lastGroup_eq_ok hs
  rw [List.length_append, List.length_map, List.length_replicate] at hl
  clear h
  dsimp only at h'
  split at h'
  · cases h'
  split at h'
  · cases h'
  rename_i htwo hfour
  have hfill : symbols.length + fill = 4 := by omega
  split at h'
  · rename_i w a x b
    split at h'
    · cases h'
    rename_i hbits
    obtain rfl := Except.pure_eq_ok.1 h'
    obtain rfl : fill = 2 := Nat.add_left_cancel hfill
    obtain ⟨⟨hw, ha⟩, hx, hb⟩ :
        (w = symbolByte a ∧ a < 64) ∧ x = symbolByte b ∧ b < 64 := by simpa using hall
    rw [groups_one ha hb (Decidable.not_not.1 hbits), hw, hx]
    rfl
  · rename_i w a x b y c
    split at h'
    · cases h'
    rename_i hbits
    obtain rfl := Except.pure_eq_ok.1 h'
    obtain rfl : fill = 1 := Nat.add_left_cancel hfill
    obtain ⟨⟨hw, ha⟩, ⟨hx, hb⟩, hy, hc⟩ : (w = symbolByte a ∧ a < 64) ∧
        (x = symbolByte b ∧ b < 64) ∧ y = symbolByte c ∧ c < 64 := by simpa using hall
    rw [groups_two ha hb hc (Decidable.not_not.1 hbits), hw, hx, hy]
    rfl
  · rename_i w a x b y c z d
    obtain rfl := Except.pure_eq_ok.1 h'
    obtain rfl : fill = 0 := Nat.add_left_cancel hfill
    obtain ⟨⟨hw, ha⟩, ⟨hx, hb⟩, ⟨hy, hc⟩, hz, hd⟩ : (w = symbolByte a ∧ a < 64) ∧
        (x = symbolByte b ∧ b < 64) ∧ (y = symbolByte c ∧ c < 64) ∧
        z = symbolByte d ∧ d < 64 := by simpa using hall
    rw [groups_three ha hb hc hd, hw, hx, hy, hz]
    rfl
  · rename_i hno₂ hno₃ hno₄
    exfalso
    rcases symbols with _ | ⟨_, _ | ⟨_, _ | ⟨_, _ | ⟨_, _ | ⟨_, _⟩⟩⟩⟩⟩
    · simp at htwo
    · simp at htwo
    · exact hno₂ _ _ _ _ rfl
    · exact hno₃ _ _ _ _ _ _ rfl
    · exact hno₄ _ _ _ _ _ _ _ _ rfl
    · simp only [List.length_cons] at hfill
      omega

/-- What is read of some groups is what they were written from. -/
theorem decodeOnto_eq_ok {start : Nat} {before bs read : Bytes}
    (h : decodeOnto start before bs = .ok read) :
    ∃ v, read = before.reverse ++ v ∧ bs = groups v := by
  fun_induction decodeOnto start before bs with
  | case1 start before w x y z more rest ih =>
    obtain ⟨a, hw, h₁⟩ := Except.bind_eq_ok.1 h
    obtain ⟨b, hx, h₂⟩ := Except.bind_eq_ok.1 h₁
    obtain ⟨c, hy, h₃⟩ := Except.bind_eq_ok.1 h₂
    obtain ⟨d, hz, h₄⟩ := Except.bind_eq_ok.1 h₃
    obtain ⟨v, hr, hv⟩ := ih a b c d h₄
    refine ⟨UInt8.ofNat (a * 4 + b / 16) :: UInt8.ofNat (b % 16 * 16 + c / 4)
      :: UInt8.ofNat (c % 4 * 64 + d) :: v, ?_, ?_⟩
    · rw [hr]
      simp only [List.reverse_cons, List.append_assoc, List.cons_append, List.nil_append]
    · rw [groups_three (valueAt_eq_ok hw).2 (valueAt_eq_ok hx).2 (valueAt_eq_ok hy).2
        (valueAt_eq_ok hz).2, ← (valueAt_eq_ok hw).1, ← (valueAt_eq_ok hx).1,
        ← (valueAt_eq_ok hy).1, ← (valueAt_eq_ok hz).1, hv]
  | case2 start before =>
    obtain rfl := Except.ok.inj h
    exact ⟨[], (List.append_nil _).symm, rfl⟩
  | case3 start before group hlong hne =>
    obtain ⟨v, hv, h⟩ := Except.bind_eq_ok.1 h
    obtain rfl := Except.pure_eq_ok.1 h
    refine ⟨v, rfl, decodeLast_eq_ok ?_ hv⟩
    rcases group with _ | ⟨_, _ | ⟨_, _ | ⟨_, _ | ⟨_, _ | ⟨more, rest⟩⟩⟩⟩⟩
    all_goals first
      | exact (hlong _ _ _ _ more rest rfl).elim
      | simp

/-- The text that reads as some bytes is the one that the bytes are written as. -/
theorem decode_iff {text : String} {bs : Bytes} : decode text = .ok bs ↔ text = encode bs := by
  constructor
  · intro h
    rw [decode] at h
    split at h
    · cases h
    · obtain ⟨v, hv, hg⟩ := decodeOnto_eq_ok h
      rw [List.reverse_nil, List.nil_append] at hv
      rw [← utf8_inj, utf8_encode, hg, hv]
  · rintro rfl
    exact decode_encode bs

end Base64

end ControlPlane
