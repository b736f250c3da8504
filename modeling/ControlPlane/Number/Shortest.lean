import ControlPlane.Number.Double
import ControlPlane.Text.Numeral

/-!
# Shortest decimal notation

The text of a floating-point number: the fewest digits that lie nearer to it than to any other
number (`Double.shortest`), laid out with a point or with an exponent (`Double.render`). What is a
matter of taste, that is, where positional notation ends and how an exponent is marked, is in a
`Layout`.
-/

namespace ControlPlane

/-- The number `0.d₁d₂…dₙ · 10 ^ point`. -/
structure Decimal where
  digits : List Nat
  point : Int
  deriving DecidableEq, Repr

namespace Double

/-! ## The interval of a number -/

/-- Compares `a · 2 ^ u` with `c · 10 ^ k` by two natural numbers. -/
def onGrid (a : Nat) (u : Int) (c : Nat) (k : Int) : Nat × Nat :=
  (a * Nat.pow 2 u.toNat * Nat.pow 10 (-k).toNat, c * Nat.pow 10 k.toNat * Nat.pow 2 (-u).toNat)

/-- Whether `c · 10 ^ k` is read back as the number `x`: it lies between the midpoints to the
neighbours of `x`, and on one of them only if the mantissa is even. -/
def covers (x : Double) (c : Nat) (k : Int) : Bool :=
  let u := x.exponent - 2
  let below := if x.mantissa = leastNormal ∧ leastExponent < x.exponent then 1 else 2
  let (low, v) := onGrid (4 * x.mantissa - below) u c k
  let (high, w) := onGrid (4 * x.mantissa + 2) u c k
  if x.mantissa % 2 = 0 then low ≤ v && w ≤ high else low < v && w < high

/-- The multiple of `10 ^ k` just below the magnitude of `x`, as a multiplier. -/
def floorAt (x : Double) (k : Int) : Nat :=
  let (v, unit) := onGrid x.mantissa x.exponent 1 k
  v / unit

/-- Whether the magnitude of `x` is nearer to `(c + 1) · 10 ^ k` than to `c · 10 ^ k`, or equally
near with `c` odd. -/
def nearerAbove (x : Double) (c : Nat) (k : Int) : Bool :=
  let (v, mid) := onGrid (2 * x.mantissa) x.exponent (2 * c + 1) k
  mid < v || (v == mid && c % 2 == 1)

/-- The multiplier of a multiple of `10 ^ k` that is read back as `x`, the nearer of two. -/
def onPower? (x : Double) (k : Int) : Option Nat :=
  let c := x.floorAt k
  match x.covers c k, x.covers (c + 1) k with
  | true, true => some (if x.nearerAbove c k then c + 1 else c)
  | true, false => some c
  | false, true => some (c + 1)
  | false, false => none

/-! ## Digits -/

/-- The exponent of the power of ten at or just below the magnitude of a number that is not zero. -/
def decimalExponent (x : Double) : Int :=
  let (n, d) := x.ratio
  let e : Int := ((Numeral.digits 10 n).length : Int) - (Numeral.digits 10 d).length
  if x.floorAt e = 0 then e - 1 else e

/-- Tries `k` and then smaller exponents of ten, as often as `steps` says. -/
def firstPower (x : Double) : (steps : Nat) → (k : Int) → Nat × Int
  | 0, k => (x.floorAt k, k)
  | steps + 1, k =>
    match x.onPower? k with
    | some c => (c, k)
    | none => firstPower x steps (k - 1)

/-- Drops the zeros at the end of a list of digits. -/
def dropZeros (ds : List Nat) : List Nat :=
  (ds.reverse.dropWhile (· = 0)).reverse

/-- The decimal with the fewest digits that is read back as the magnitude of `x`. Seventeen digits
are always enough. -/
def shortest (x : Double) : Decimal :=
  let (c, k) := x.firstPower 17 x.decimalExponent
  let ds := Numeral.digits 10 c
  ⟨dropZeros ds, k + ds.length⟩

/-! ## Texts -/

/-- How a number is laid out: the least decimal exponent written with a point alone, the first one
that is too large for it, and whether a plus sign marks a positive exponent. -/
structure Layout where
  least : Int
  beyond : Int
  plus : Bool

/-- A decimal written with a point and at least one digit on each side of it. -/
def positional (d : Decimal) : List Char :=
  let ds := d.digits.map Numeral.digit
  if d.point ≤ 0 then ['0', '.'] ++ List.replicate (-d.point).toNat '0' ++ ds
  else
    let whole := ds.take d.point.toNat
    let part := ds.drop d.point.toNat
    whole ++ List.replicate (d.point.toNat - ds.length) '0' ++ ['.'] ++
      (if part.isEmpty then ['0'] else part)

/-- A decimal written with an exponent. -/
def scientific (l : Layout) (d : Decimal) : List Char :=
  let e := d.point - 1
  let ds := d.digits.map Numeral.digit
  let part := ds.drop 1
  ds.take 1 ++ (if part.isEmpty then [] else '.' :: part) ++ ['e'] ++
    (if 0 ≤ e && l.plus then ['+'] else []) ++ Numeral.signed e

/-- The text of a number. -/
def render (l : Layout) (x : Double) : List Char :=
  let sign := if x.negative then ['-'] else []
  if x.mantissa = 0 then sign ++ ['0', '.', '0']
  else
    let d := x.shortest
    sign ++ if l.least < d.point && d.point ≤ l.beyond then positional d else scientific l d

end Double

end ControlPlane
