import ControlPlane.Json.Basic
import ControlPlane.Text.Numeral

/-!
# Numbers in a text

A number is an optional minus sign, an integer part without leading zeros, and optionally a
fraction and an exponent. One without both that fits 64 bits is an integer; any other is a
floating-point number, computed from at most 64 bits of its digits.
-/

namespace ControlPlane

/-- The parts of a number: its digits before and behind the point and its power of ten. -/
structure Numeral.Parts where
  negative : Bool
  whole : List Nat
  fraction : Option (List Nat)
  power : Option Int
  deriving Repr

namespace Number

/-! ## From parts to a number -/

/-- The first number that does not fit 64 bits. -/
def wordSize : Nat := Nat.pow 2 64

/-- Digits taken into a significand of 64 bits, and the power of ten it is to be multiplied by. -/
structure Significand where
  value : Nat
  power : Int
  /-- No further digit is taken. -/
  full : Bool

/-- Takes a digit before the point; once one did not fit, each only raises the power. -/
def Significand.addWhole (s : Significand) (d : Nat) : Significand :=
  if 0 < s.power ∨ wordSize ≤ s.value * 10 + d then { s with power := s.power + 1 }
  else { s with value := s.value * 10 + d }

/-- Takes a digit behind the point, if it and all before it there fit. -/
def Significand.addFraction (s : Significand) (d : Nat) : Significand :=
  if s.full ∨ wordSize ≤ s.value * 10 + d then { s with full := true }
  else { s with value := s.value * 10 + d, power := s.power - 1 }

/-- An integer, if its magnitude fits: 64 bits without sign, 63 bits and the least number with
one. Minus zero is no integer. -/
def integer? (negative : Bool) (whole : List Nat) : Option Int :=
  let n := Numeral.ofDigits 10 whole
  if negative then
    if n = 0 ∨ Nat.pow 2 63 < n then none else some (-(n : Int))
  else if n < wordSize then some n
  else none

/-- The floating-point number of some parts; `none` if it is too large. -/
def real? (p : Numeral.Parts) : Option Double :=
  let s := p.whole.foldl Significand.addWhole ⟨0, 0, false⟩
  let s := (p.fraction.getD []).foldl Significand.addFraction s
  Double.ofScientific? p.negative s.value (s.power + p.power.getD 0)

/-- The number of some parts; `none` if it is too large. -/
def ofParts? (p : Numeral.Parts) : Option Number :=
  match p.fraction, p.power with
  | none, none =>
    match integer? p.negative p.whole with
    | some i => some (.integer i)
    | none => (real? p).map .real
  | _, _ => (real? p).map .real

/-! ## From a text to parts -/

/-- The digits before the point: a zero alone, or digits that begin with no zero. -/
def wholePart? (text : Text) : Option (List Nat × Text) :=
  match Text.digits text with
  | ([], _) => none
  | (0 :: _ :: _, _) => none
  | (ds, rest) => some (ds, rest)

/-- A point and the digits behind it, if there is a point. -/
def fractionPart? (text : Text) : Option (Option (List Nat) × Text) :=
  match text with
  | .char '.' :: rest =>
    match Text.digits rest with
    | ([], _) => none
    | (ds, rest) => some (some ds, rest)
  | text => some (none, text)

/-- The digits of an exponent behind its sign. -/
def exponentDigits? (sign : Int) (text : Text) : Option (Option Int × Text) :=
  match Text.digits text with
  | ([], _) => none
  | (ds, rest) => some (some (sign * (Numeral.ofDigits 10 ds : Nat)), rest)

/-- An exponent, if there is one. -/
def exponentPart? (text : Text) : Option (Option Int × Text) :=
  match text with
  | .char 'e' :: rest | .char 'E' :: rest =>
    match rest with
    | .char '+' :: rest => exponentDigits? 1 rest
    | .char '-' :: rest => exponentDigits? (-1) rest
    | rest => exponentDigits? 1 rest
  | text => some (none, text)

/-- The parts of the number at the front of a text, behind its sign. -/
def parts? (negative : Bool) (text : Text) : Option (Numeral.Parts × Text) := do
  let (whole, rest) ← wholePart? text
  let (fraction, rest) ← fractionPart? rest
  let (power, rest) ← exponentPart? rest
  return (⟨negative, whole, fraction, power⟩, rest)

end Number

end ControlPlane
