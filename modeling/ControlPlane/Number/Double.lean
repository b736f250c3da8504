/-!
# Floating-point numbers

Finite binary floating-point numbers of 64 bits as a sign, a mantissa and an exponent of two, with
the one rounding that all of their arithmetic here needs: from an exact quotient to the nearest
number, a tie going to the even mantissa. `Double.ofScientific?` is the number that a decimal
notation stands for when it is computed with one rounded multiplication or division by a power of
ten.
-/

namespace ControlPlane

/-- The number `mantissa · 2 ^ exponent`, negated if `negative`. In its standard form the mantissa
has 53 bits, or the exponent is the least one, -1074. -/
structure Double where
  negative : Bool
  mantissa : Nat
  exponent : Int
  deriving DecidableEq, Repr

namespace Double

/-! ## Rounding -/

/-- The natural number nearest to `num / den`, the even one if two are equally near. -/
def roundDiv (num den : Nat) : Nat :=
  let q := num / den
  let r := num % den
  if 2 * r < den then q else if den < 2 * r then q + 1 else q + q % 2

/-- Writes `num / den` as a quotient in units of `2 ^ e`. -/
def inUnits (num den : Nat) (e : Int) : Nat × Nat :=
  if 0 ≤ e then (num, den * Nat.pow 2 e.toNat) else (num * Nat.pow 2 (-e).toNat, den)

/-- The least exponent of two. -/
def leastExponent : Int := -1074

/-- The greatest exponent of two. -/
def greatestExponent : Int := 971

/-- The least mantissa of 53 bits. -/
def leastNormal : Nat := 4503599627370496

/-- The number after the greatest mantissa. -/
def beyondMantissa : Nat := 9007199254740992

/-- The mantissa and exponent nearest to `num / den`; `none` if that is too large. -/
def nearest? (num den : Nat) : Option (Nat × Int) :=
  if num = 0 then some (0, leastExponent)
  else
    let low : Int := (num.log2 : Int) - den.log2 - 53
    let (n, d) := inUnits num den low
    let e := max (if n / d < beyondMantissa then low else low + 1) leastExponent
    let (n, d) := inUnits num den e
    let m := roundDiv n d
    let (m, e) := if m = beyondMantissa then (leastNormal, e + 1) else (m, e)
    if greatestExponent < e then none else some (m, e)

/-- The number nearest to `num / den` with the given sign; `none` if that is too large. -/
def ofRatio? (negative : Bool) (num den : Nat) : Option Double :=
  (nearest? num den).map fun (m, e) => ⟨negative, m, e⟩

/-- The magnitude as an exact quotient. -/
def ratio (x : Double) : Nat × Nat :=
  inUnits x.mantissa 1 (-x.exponent)

/-- Zero with the given sign. -/
def zero (negative : Bool) : Double :=
  ⟨negative, 0, leastExponent⟩

/-- The number nearest to a natural number below `2 ^ 1024`; zero stands for any greater one. -/
def ofNat (n : Nat) : Double :=
  (ofRatio? false n 1).getD (zero false)

/-- The number nearest to an integer whose magnitude is below `2 ^ 1024`. -/
def ofInt (i : Int) : Double :=
  { ofNat i.natAbs with negative := decide (i < 0) }

/-! ## Powers of ten -/

/-- The greatest exponent of ten whose power is a finite number. -/
def greatestPower : Nat := 308

/-- The number nearest to `10 ^ k`. -/
def powerOfTen (k : Nat) : Double :=
  ofNat (Nat.pow 10 k)

/-- The rounded product with a power of ten; `none` if that is too large. -/
def timesPower? (x : Double) (k : Nat) : Option Double :=
  let (a, b) := x.ratio
  let (c, d) := (powerOfTen k).ratio
  ofRatio? x.negative (a * c) (b * d)

/-- The rounded quotient by a power of ten. -/
def overPower (x : Double) (k : Nat) : Double :=
  let (a, b) := x.ratio
  let (c, d) := (powerOfTen k).ratio
  (ofRatio? x.negative (a * d) (b * c)).getD (zero x.negative)

/-- Divides by `10 ^ k`, by the greatest power as long as more than that is left. -/
def shrink (x : Double) (k : Nat) : Double :=
  if x.mantissa = 0 ∨ k ≤ greatestPower then x.overPower (min k greatestPower)
  else (x.overPower greatestPower).shrink (k - greatestPower)
termination_by k
decreasing_by simp only [greatestPower] at *; omega

/-- The number `±significand · 10 ^ exponent`, rounded once from the significand and once more
from the product or quotient; `none` if it is too large. -/
def ofScientific? (negative : Bool) (significand : Nat) (exponent : Int) : Option Double :=
  let x := { ofNat significand with negative := negative }
  if significand = 0 then some x
  else if exponent < 0 then some (x.shrink exponent.natAbs)
  else if exponent.toNat ≤ greatestPower then x.timesPower? exponent.toNat
  else none

end Double

end ControlPlane
