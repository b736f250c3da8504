import ControlPlane.Json.Spelling

/-!
# Strings in a text: reading what was written

`Spelling.read_write` says that a string written between quotes is read back, whatever follows it,
and `Spelling.read_append` that what is read of a string does not depend on what follows it.
-/

namespace ControlPlane

namespace Text

theorem ofChars_nil : ofChars [] = [] := rfl

theorem ofChars_cons (c : Char) (cs : List Char) : ofChars (c :: cs) = .char c :: ofChars cs := rfl

theorem ofChars_append (cs ds : List Char) : ofChars (cs ++ ds) = ofChars cs ++ ofChars ds :=
  List.map_append

theorem length_ofChars (cs : List Char) : (ofChars cs).length = cs.length :=
  List.length_map _

end Text

namespace Spelling

open Text

/-! ## What was written -/

theorem hex?_digit : ∀ n < 16, Numeral.hex? (Numeral.digit n) = some n := by decide

theorem readOn_more {d e : Draft} {m n : Mode} {c : Char} (h : step d m c = .more e n)
    (rest : Text) : readOn d m (.char c :: rest) = readOn e n rest := by
  rw [readOn, h]

/-- A control character is read from its number. -/
theorem readOn_number {n : Nat} (d : Draft) (h : n < 0x20) (rest : Text) :
    readOn d .plain (ofChars ['\\', 'u', '0', '0', Numeral.digit (n / 16),
      Numeral.digit (n % 16)] ++ rest) = readOn (d.push (Char.ofNat n)) .plain rest := by
  have h₁ : Numeral.hex? (Numeral.digit (n / 16)) = some (n / 16) := hex?_digit _ (by omega)
  have h₂ : Numeral.hex? (Numeral.digit (n % 16)) = some (n % 16) := hex?_digit _ (by omega)
  have hn : n / 16 * 16 + n % 16 = n := by omega
  have ht : takeNumber d n none = (d.push (Char.ofNat n), .plain) := by
    have h₃ : isFirstHalf n = false := by
      simp only [isFirstHalf, Bool.and_eq_false_iff, decide_eq_false_iff_not]
      omega
    have h₄ : isSecondHalf n = false := by
      simp only [isSecondHalf, Bool.and_eq_false_iff, decide_eq_false_iff_not]
      omega
    simp [takeNumber, h₃, h₄]
  simp only [ofChars_cons, ofChars_nil, List.cons_append, List.nil_append]
  rw [readOn_more (e := d) (n := .escape none) rfl,
    readOn_more (e := d) (n := .hex 4 0 none) rfl,
    readOn_more (e := d) (n := .hex 3 0 none) rfl,
    readOn_more (e := d) (n := .hex 2 0 none) rfl,
    readOn_more (e := d) (n := .hex 1 (n / 16) none) (by simp [step, h₁]),
    readOn_more (e := d.push (Char.ofNat n)) (n := .plain) (by simp [step, h₂, hn, ht])]

/-- What is written for a character is read as the character. -/
theorem readOn_writeChar (d : Draft) (c : Char) (rest : Text) :
    readOn d .plain (ofChars (writeChar c) ++ rest) = readOn (d.push c) .plain rest := by
  unfold writeChar
  split
  case h_8 =>
    rename_i hq hb _ _ _ _ _
    split
    case isTrue h => rw [readOn_number d h, Char.ofNat_toNat]
    case isFalse h =>
      have hs : step d .plain c = .more (d.push c) .plain := by
        simp only [step, stepPlain]
        rw [if_neg hq, if_neg hb, if_neg h]
      exact readOn_more hs rest
  all_goals rfl

theorem readOn_flatMap_writeChar (cs : List Char) (d : Draft) (rest : Text) :
    readOn d .plain (ofChars (cs.flatMap writeChar) ++ rest) =
      readOn { d with chars := cs.reverse ++ d.chars } .plain rest := by
  induction cs generalizing d with
  | nil => rfl
  | cons c cs ih =>
    rw [List.flatMap_cons, ofChars_append, List.append_assoc, readOn_writeChar, ih]
    simp [Draft.push]

/-- A string is read back from what was written for it. -/
theorem read_write (s : String) (rest : Text) :
    read (ofChars (s.toList.flatMap writeChar) ++ .char '"' :: rest) = some (some s, rest) := by
  have hs : step ⟨s.toList.reverse, true⟩ .plain '"' = .done ⟨s.toList.reverse, true⟩ := rfl
  rw [read, readOn_flatMap_writeChar, List.append_nil, readOn, hs]
  simp [Draft.text, String.ofList_toList]

/-! ## What follows -/

theorem readOn_append {d : Draft} {m : Mode} {text rest : Text} {s : Spelled}
    (h : readOn d m text = some (s, rest)) (more : Text) :
    readOn d m (text ++ more) = some (s, rest ++ more) := by
  induction text generalizing d m with
  | nil => simp [readOn] at h
  | cons x text ih =>
    rw [List.cons_append]
    cases x with
    | broken =>
      cases m with
      | plain | paired => exact ih h
      | escape | hex => simp [readOn] at h
    | char c =>
      rw [readOn] at h ⊢
      cases hs : step d m c with
      | more e n =>
        rw [hs] at h
        exact ih h
      | done e =>
        rw [hs] at h
        simp only [Option.some.injEq, Prod.mk.injEq] at h
        rw [← h.1, ← h.2]
      | stop =>
        rw [hs] at h
        simp at h

/-- What is read of a string does not depend on what follows it. -/
theorem read_append {text rest : Text} {s : Spelled} (h : read text = some (s, rest))
    (more : Text) : read (text ++ more) = some (s, rest ++ more) :=
  readOn_append h more

end Spelling

end ControlPlane
