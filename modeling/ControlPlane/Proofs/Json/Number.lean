import ControlPlane.Json.Writer
import ControlPlane.Proofs.Json.Spelling
import ControlPlane.Proofs.Text.Numeral
import ControlPlane.Json.Number

/-!
# Numbers in a text: parts

A number is written from its parts (`Numeral.Parts.unsigned`), and `Number.parts?_unsigned` says
that proper parts are read back from what is written, if what follows does not go on with the
number. `Number.parts?_append` says that the parts that were read do not depend on what is put
behind a text that goes on behind them.
-/

namespace ControlPlane

open Text

namespace Numeral.Parts

/-- The text of a fraction: a point and digits. -/
def fractionText : Option (List Nat) → List Char
  | none => []
  | some ds => '.' :: ds.map digit

/-- The text of an exponent: a letter, a sign and digits. -/
def exponentText : Option Int → List Char
  | none => []
  | some e => 'e' :: (if 0 ≤ e then ['+'] else []) ++ signed e

/-- The text of the parts of a number, without its sign. -/
def unsigned (p : Parts) : List Char :=
  p.whole.map digit ++ fractionText p.fraction ++ exponentText p.power

/-- Whether digits stand where a number must have them, with no zero at its front. -/
structure Proper (p : Parts) : Prop where
  whole_ne_nil : p.whole ≠ []
  whole_lt : ∀ d ∈ p.whole, d < 10
  no_leading_zero : p.whole = [0] ∨ p.whole.head? ≠ some 0
  fraction_ne_nil : p.fraction ≠ some []
  fraction_lt : ∀ ds ∈ p.fraction, ∀ d ∈ ds, d < 10

end Numeral.Parts

namespace Number

open Numeral

/-- Whether a text does not go on with a number. -/
def Ends (text : Text) : Prop :=
  ∀ c, text.head? = some (.char c) → (c.toNat < 48 ∨ 57 < c.toNat) ∧ c ≠ '.' ∧ c ≠ 'e' ∧ c ≠ 'E'

theorem ends_nil : Ends [] := by
  intro c h
  simp at h

theorem ends_cons {c : Char} {text : Text}
    (h : (c.toNat < 48 ∨ 57 < c.toNat) ∧ c ≠ '.' ∧ c ≠ 'e' ∧ c ≠ 'E') :
    Ends (.char c :: text) := by
  intro d hd
  rw [List.head?_cons, Option.some.injEq, Symbol.char.injEq] at hd
  exact hd ▸ h

/-! ## Digits -/

/-- Whether a text does not go on with a digit. -/
def NoDigit (text : Text) : Prop :=
  ∀ c, text.head? = some (.char c) → c.toNat < 48 ∨ 57 < c.toNat

theorem Ends.noDigit {text : Text} (h : Ends text) : NoDigit text :=
  fun c hc => (h c hc).1

theorem noDigit_cons {c : Char} {text : Text} (h : c.toNat < 48 ∨ 57 < c.toNat) :
    NoDigit (.char c :: text) := by
  intro d hd
  rw [List.head?_cons, Option.some.injEq, Symbol.char.injEq] at hd
  exact hd ▸ h

theorem digitsOnto_of_noDigit {text : Text} (h : NoDigit text) (read : List Nat) :
    digitsOnto read text = (read.reverse, text) := by
  cases text with
  | nil => rfl
  | cons s text =>
    cases s with
    | broken => rfl
    | char c => rw [digitsOnto, if_pos (h c rfl)]

theorem digitsOnto_map_digit {ds : List Nat} (hd : ∀ d ∈ ds, d < 10) {rest : Text}
    (hr : NoDigit rest) (read : List Nat) :
    digitsOnto read (ofChars (ds.map digit) ++ rest) = (read.reverse ++ ds, rest) := by
  induction ds generalizing read with
  | nil => rw [List.append_nil]; exact digitsOnto_of_noDigit hr read
  | cons d ds ih =>
    have hd₀ : d < 10 := hd d List.mem_cons_self
    rw [List.map_cons, ofChars_cons, List.cons_append, digitsOnto,
      if_neg (by rw [digit_toNat d hd₀]; omega), digit_toNat d hd₀, Nat.add_sub_cancel_left,
      ih fun d h => hd d (List.mem_cons_of_mem _ h)]
    simp

theorem digits_map_digit {ds : List Nat} (hd : ∀ d ∈ ds, d < 10) {rest : Text}
    (hr : NoDigit rest) : Text.digits (ofChars (ds.map digit) ++ rest) = (ds, rest) :=
  digitsOnto_map_digit hd hr []

/-! ## Parts -/

theorem wholePart?_map_digit {ds : List Nat} (hn : ds ≠ []) (hd : ∀ d ∈ ds, d < 10)
    (hz : ds = [0] ∨ ds.head? ≠ some 0) {rest : Text} (hr : NoDigit rest) :
    wholePart? (ofChars (ds.map digit) ++ rest) = some (ds, rest) := by
  rw [wholePart?, digits_map_digit hd hr]
  match ds, hn, hz with
  | [0], _, _ | [d + 1], _, _ => rfl
  | 0 :: e :: es, _, hz => simp at hz
  | (d + 1) :: e :: es, _, _ => rfl

theorem fractionPart?_none {text : Text} (h : ∀ c, text.head? = some (.char c) → c ≠ '.') :
    fractionPart? text = some (none, text) := by
  unfold fractionPart?
  split
  · exact absurd rfl (h '.' rfl)
  · rfl

theorem fractionPart?_some {ds : List Nat} (hn : ds ≠ []) (hd : ∀ d ∈ ds, d < 10) {rest : Text}
    (hr : NoDigit rest) :
    fractionPart? (ofChars (Parts.fractionText (some ds)) ++ rest) = some (some ds, rest) := by
  rw [Parts.fractionText, ofChars_cons, List.cons_append, fractionPart?, digits_map_digit hd hr]
  cases ds with
  | nil => exact absurd rfl hn
  | cons d ds => rfl

theorem exponentPart?_none {text : Text} (h : Ends text) :
    exponentPart? text = some (none, text) := by
  unfold exponentPart?
  split
  · exact absurd rfl (h 'e' rfl).2.2.1
  · exact absurd rfl (h 'E' rfl).2.2.2
  · rfl

theorem exponentDigits?_decimal (sign : Int) (n : Nat) {rest : Text} (hr : NoDigit rest) :
    exponentDigits? sign (ofChars (decimal n) ++ rest) = some (some (sign * n), rest) := by
  obtain ⟨ds, hn, hne, hd, ho⟩ := decimal_eq n
  rw [exponentDigits?, hn, digits_map_digit hd hr]
  cases ds with
  | nil => exact absurd rfl hne
  | cons d ds => rw [← ho]

theorem exponentPart?_exponentText (power : Option Int) {rest : Text} (hr : Ends rest) :
    exponentPart? (ofChars (Parts.exponentText power) ++ rest) = some (power, rest) := by
  match power with
  | none => exact exponentPart?_none hr
  | some (.ofNat n) =>
    have h := exponentDigits?_decimal 1 n hr.noDigit
    rw [Int.one_mul] at h
    rw [Parts.exponentText, if_pos (show 0 ≤ Int.ofNat n from Int.natCast_nonneg n)]
    exact h
  | some (.negSucc n) =>
    have h := exponentDigits?_decimal (-1) (n + 1) hr.noDigit
    rw [Int.neg_one_mul] at h
    rw [Parts.exponentText, if_neg (by omega)]
    exact h

/-- An exponent begins with its letter, so no digits or fraction go on there. -/
theorem head?_exponentText (power : Option Int) {rest : Text} (hr : Ends rest) (c : Char)
    (h : (ofChars (Parts.exponentText power) ++ rest).head? = some (.char c)) :
    (c.toNat < 48 ∨ 57 < c.toNat) ∧ c ≠ '.' := by
  cases power with
  | none => exact ⟨(hr c h).1, (hr c h).2.1⟩
  | some e =>
    rw [Parts.exponentText, List.cons_append, ofChars_cons, List.cons_append, List.head?_cons,
      Option.some.injEq, Symbol.char.injEq] at h
    subst h
    decide

/-- Proper parts are read back from what is written for them. -/
theorem parts?_unsigned {p : Numeral.Parts} (hp : p.Proper) {rest : Text} (hr : Ends rest) :
    parts? p.negative (ofChars p.unsigned ++ rest) = some (p, rest) := by
  obtain ⟨negative, whole, fraction, power⟩ := p
  obtain ⟨hn, hd, hz, hf, hfd⟩ := hp
  dsimp only at hn hd hz hf hfd
  have he := head?_exponentText power hr
  simp only [Parts.unsigned, ofChars_append, List.append_assoc, parts?, bind, Option.bind]
  cases fraction with
  | none =>
    have hw :
        wholePart? (ofChars (whole.map digit) ++ (ofChars (Parts.exponentText power) ++ rest)) =
        some (whole, ofChars (Parts.exponentText power) ++ rest) :=
      wholePart?_map_digit hn hd hz fun c h => (he c h).1
    simp only [Parts.fractionText, ofChars_nil, List.nil_append, hw,
      fractionPart?_none fun c h => (he c h).2, exponentPart?_exponentText power hr]
    rfl
  | some ds =>
    have hw : wholePart? (ofChars (whole.map digit) ++ (ofChars (Parts.fractionText (some ds)) ++
        (ofChars (Parts.exponentText power) ++ rest))) =
        some (whole, ofChars (Parts.fractionText (some ds)) ++
          (ofChars (Parts.exponentText power) ++ rest)) :=
      wholePart?_map_digit hn hd hz (noDigit_cons (by decide))
    have hds := fractionPart?_some (fun h => hf (by rw [h])) (hfd ds rfl) fun c h => (he c h).1
    simp only [hw, hds, exponentPart?_exponentText power hr]
    rfl

/-! ## What follows -/

theorem digitsOnto_append {read ds : List Nat} {text rest : Text}
    (h : digitsOnto read text = (ds, rest)) (hr : rest ≠ []) (more : Text) :
    digitsOnto read (text ++ more) = (ds, rest ++ more) := by
  fun_induction digitsOnto read text with
  | case1 read c text hc =>
    rw [Prod.mk.injEq] at h
    rw [List.cons_append, digitsOnto, if_pos hc, h.1, ← h.2, List.cons_append]
  | case2 read c text hc ih =>
    rw [List.cons_append, digitsOnto, if_neg hc]
    exact ih h
  | case3 read text hc =>
    rw [Prod.mk.injEq] at h
    cases text with
    | nil => exact absurd h.2.symm hr
    | cons s text =>
      cases s with
      | char c => exact absurd rfl (hc c text)
      | broken => rw [List.cons_append, digitsOnto, h.1, ← h.2, List.cons_append]; simp

theorem digits_append {ds : List Nat} {text rest : Text} (h : Text.digits text = (ds, rest))
    (hr : rest ≠ []) (more : Text) : Text.digits (text ++ more) = (ds, rest ++ more) :=
  digitsOnto_append h hr more

theorem wholePart?_append {ds : List Nat} {text rest : Text}
    (h : wholePart? text = some (ds, rest)) (hr : rest ≠ []) (more : Text) :
    wholePart? (text ++ more) = some (ds, rest ++ more) := by
  unfold wholePart? at h ⊢
  rcases hd : Text.digits text with ⟨es, r⟩
  rw [hd] at h
  match es, hd, h with
  | [], hd, h | 0 :: _ :: _, hd, h => simp at h
  | [0], hd, h | (_ + 1) :: _, hd, h =>
    obtain ⟨rfl, rfl⟩ := Prod.mk.inj (Option.some.inj h)
    rw [digits_append hd hr]
    rfl

theorem fractionPart?_append {f : Option (List Nat)} {text rest : Text}
    (h : fractionPart? text = some (f, rest)) (hr : rest ≠ []) (more : Text) :
    fractionPart? (text ++ more) = some (f, rest ++ more) := by
  unfold fractionPart? at h
  split at h
  · rename_i text
    rw [List.cons_append, fractionPart?]
    rcases hd : Text.digits text with ⟨es, r⟩
    rw [hd] at h
    cases es with
    | nil => simp at h
    | cons e es =>
      obtain ⟨rfl, rfl⟩ := Prod.mk.inj (Option.some.inj h)
      rw [digits_append hd hr]
  · rename_i hp
    obtain ⟨rfl, rfl⟩ := Prod.mk.inj (Option.some.inj h)
    obtain ⟨s, text, rfl⟩ := List.exists_cons_of_ne_nil hr
    refine fractionPart?_none fun c hc => ?_
    rintro rfl
    rw [List.cons_append, List.head?_cons, Option.some.injEq] at hc
    exact hp text (by rw [hc])

theorem exponentDigits?_append {sign : Int} {e : Option Int} {text rest : Text}
    (h : exponentDigits? sign text = some (e, rest)) (hr : rest ≠ []) (more : Text) :
    exponentDigits? sign (text ++ more) = some (e, rest ++ more) := by
  unfold exponentDigits? at h ⊢
  rcases hd : Text.digits text with ⟨es, r⟩
  rw [hd] at h
  cases es with
  | nil => simp at h
  | cons d es =>
    obtain ⟨rfl, rfl⟩ := Prod.mk.inj (Option.some.inj h)
    rw [digits_append hd hr]

/-- The exponent behind its letter. -/
def signedExponent? (text : Text) : Option (Option Int × Text) :=
  match text with
  | .char '+' :: rest => exponentDigits? 1 rest
  | .char '-' :: rest => exponentDigits? (-1) rest
  | rest => exponentDigits? 1 rest

theorem signedExponent?_append {e : Option Int} {text rest : Text}
    (h : signedExponent? text = some (e, rest)) (hr : rest ≠ []) (more : Text) :
    signedExponent? (text ++ more) = some (e, rest ++ more) := by
  unfold signedExponent? at h
  split at h
  · exact exponentDigits?_append h hr more
  · exact exponentDigits?_append h hr more
  · rename_i h₁ h₂
    cases text with
    | nil => simp [exponentDigits?, Text.digits, digitsOnto] at h
    | cons s text =>
      have hs : signedExponent? (s :: text ++ more) = exponentDigits? 1 (s :: text ++ more) := by
        rw [List.cons_append, signedExponent?]
        · rintro rest he
          exact h₁ text (by rw [(List.cons.inj he).1])
        · rintro rest he
          exact h₂ text (by rw [(List.cons.inj he).1])
      rw [hs]
      exact exponentDigits?_append h hr more

theorem exponentPart?_append {e : Option Int} {text rest : Text}
    (h : exponentPart? text = some (e, rest)) (hr : rest ≠ []) (more : Text) :
    exponentPart? (text ++ more) = some (e, rest ++ more) := by
  have small : ∀ text, exponentPart? (.char 'e' :: text) = signedExponent? text := fun _ => rfl
  have great : ∀ text, exponentPart? (.char 'E' :: text) = signedExponent? text := fun _ => rfl
  unfold exponentPart? at h
  split at h
  · rw [List.cons_append, small]
    exact signedExponent?_append h hr more
  · rw [List.cons_append, great]
    exact signedExponent?_append h hr more
  · rename_i h₁ h₂
    obtain ⟨rfl, rfl⟩ := Prod.mk.inj (Option.some.inj h)
    obtain ⟨s, text, rfl⟩ := List.exists_cons_of_ne_nil hr
    rw [List.cons_append, exponentPart?]
    · rintro rest he
      exact h₁ text (by rw [(List.cons.inj he).1])
    · rintro rest he
      exact h₂ text (by rw [(List.cons.inj he).1])

/-- The parts at the front of a text do not depend on what is put behind the text, unless they
reach to its end. -/
theorem parts?_append {negative : Bool} {p : Numeral.Parts} {text rest : Text}
    (h : parts? negative text = some (p, rest)) (hr : rest ≠ []) (more : Text) :
    parts? negative (text ++ more) = some (p, rest ++ more) := by
  simp only [parts?, bind, Option.bind] at h ⊢
  rcases hw : wholePart? text with _ | ⟨whole, r₁⟩
  · simp [hw] at h
  rw [hw] at h
  dsimp only at h
  rcases hf : fractionPart? r₁ with _ | ⟨fraction, r₂⟩
  · simp [hf] at h
  rw [hf] at h
  dsimp only at h
  rcases he : exponentPart? r₂ with _ | ⟨power, r₃⟩
  · simp [he] at h
  rw [he] at h
  obtain ⟨rfl, rfl⟩ := Prod.mk.inj (Option.some.inj h)
  have h₂ : r₂ ≠ [] := by
    rintro rfl
    obtain ⟨-, rfl⟩ := Prod.mk.inj (Option.some.inj he)
    exact hr rfl
  have h₁ : r₁ ≠ [] := by
    rintro rfl
    obtain ⟨-, rfl⟩ := Prod.mk.inj (Option.some.inj hf)
    exact h₂ rfl
  simp only [wholePart?_append hw h₁, fractionPart?_append hf h₂, exponentPart?_append he hr]
  rfl

end Number

end ControlPlane
