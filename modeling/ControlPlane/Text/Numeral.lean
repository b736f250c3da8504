/-!
# Numerals

Natural numbers in positional notation: the digits of a number in a base, the number that digits
stand for, and the texts built from them (decimal, hexadecimal, fixed width).
-/

namespace ControlPlane.Numeral

/-! ## Single digits -/

/-- The digit of a number below sixteen, letters in lower case. -/
def digit (d : Nat) : Char :=
  if d < 10 then Char.ofNat (48 + d) else Char.ofNat (87 + d)

/-- The value of a decimal digit. -/
def decimal? (c : Char) : Option Nat :=
  if 48 ≤ c.toNat ∧ c.toNat ≤ 57 then some (c.toNat - 48) else none

/-- The value of a hexadecimal digit of either case. -/
def hex? (c : Char) : Option Nat :=
  let n := c.toNat
  if 48 ≤ n ∧ n ≤ 57 then some (n - 48)
  else if 97 ≤ n ∧ n ≤ 102 then some (n - 87)
  else if 65 ≤ n ∧ n ≤ 70 then some (n - 55)
  else none

/-- Whether a character is a decimal digit. -/
def isDecimal (c : Char) : Bool :=
  (decimal? c).isSome

/-! ## Digits of a number -/

/-- The digits of `n` in `base`, least first, none for zero. -/
def digitsRev (base n : Nat) : List Nat :=
  if _h : n = 0 ∨ base < 2 then []
  else n % base :: digitsRev base (n / base)
termination_by n
decreasing_by exact Nat.div_lt_self (by omega) (by omega)

/-- The digits of `n` in `base`, greatest first; zero has one digit. -/
def digits (base n : Nat) : List Nat :=
  match (digitsRev base n).reverse with
  | [] => [0]
  | ds => ds

/-- The number that digits stand for, greatest first. -/
def ofDigits (base : Nat) (ds : List Nat) : Nat :=
  ds.foldl (fun n d => n * base + d) 0

/-! ## Texts -/

/-- A number in decimal notation. -/
def decimal (n : Nat) : List Char :=
  (digits 10 n).map digit

/-- A number in hexadecimal notation, without leading zeros. -/
def hex (n : Nat) : List Char :=
  (digits 16 n).map digit

/-- A text filled up with zeros at its front to the given width. -/
def padded (width : Nat) (cs : List Char) : List Char :=
  List.replicate (width - cs.length) '0' ++ cs

/-- An integer in decimal notation, a minus sign before negative ones. -/
def signed (i : Int) : List Char :=
  match i with
  | .ofNat n => decimal n
  | .negSucc n => '-' :: decimal (n + 1)

/-- The decimal text of a number. -/
def text (n : Nat) : String :=
  String.ofList (decimal n)

/-- The decimal digits at the front of a text, at most `limit` of them, and the rest. -/
def takeDigits : (limit : Nat) → List Char → List Nat × List Char
  | 0, cs => ([], cs)
  | _ + 1, [] => ([], [])
  | limit + 1, c :: cs =>
    match decimal? c with
    | some d => let (ds, rest) := takeDigits limit cs; (d :: ds, rest)
    | none => ([], c :: cs)

end ControlPlane.Numeral
