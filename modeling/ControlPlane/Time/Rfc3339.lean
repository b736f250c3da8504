import ControlPlane.Text.Class
import ControlPlane.Text.Numeral
import ControlPlane.Time.Instant

/-!
# Times as text

Instants as texts of the form `2024-01-01T00:00:00.5Z`. `Instant.render` writes the shortest
fraction of whole thousands, `Instant.stamp` always six digits; `Instant.parse?` reads any offset
and is generous with white space.
-/

namespace ControlPlane.Instant

open ControlPlane.Text ControlPlane.Numeral

/-! ## Writing -/

/-- A number with two digits. -/
def two (n : Nat) : List Char :=
  padded 2 (decimal n)

/-- A year: four digits, and beyond them a sign and at least four. -/
def yearText (y : Int) : List Char :=
  let ds := padded 4 (decimal y.natAbs)
  if y < 0 then '-' :: ds else if 9999 < y then '+' :: ds else ds

/-- A fraction of a second with none, three, six or nine digits, as many as it needs. -/
def fractionText (nanos : Nat) : List Char :=
  if nanos = 0 then []
  else if nanos % 1000000 = 0 then '.' :: padded 3 (decimal (nanos / 1000000))
  else if nanos % 1000 = 0 then '.' :: padded 6 (decimal (nanos / 1000))
  else '.' :: padded 9 (decimal nanos)

/-- Date and time of day to the second. A leap second is number 60 of its minute. -/
def secondText (t : Instant) : List Char :=
  let d := Date.ofDays (t.seconds / daySeconds)
  let s := (t.seconds % daySeconds).toNat
  yearText d.year ++ ['-'] ++ two d.month ++ ['-'] ++ two d.day ++ ['T'] ++
    two (s / 3600) ++ [':'] ++
    two (s / 60 % 60) ++ [':'] ++ two (s % 60 + t.nanos / second)

/-- The text of an instant. -/
def render (t : Instant) : List Char :=
  t.secondText ++ fractionText (t.nanos % second) ++ ['Z']

/-- The text of an instant to the microsecond. -/
def stamp (t : Instant) : List Char :=
  t.secondText ++ ['.'] ++ padded 6 (decimal (t.nanos % second / 1000)) ++ ['Z']

/-! ## Reading -/

/-- A number of one to `width` digits, white space allowed before it. -/
def number? (width : Nat) (cs : List Char) : Option (Nat × List Char) :=
  match takeDigits width (skipBlank cs) with
  | ([], _) => none
  | (ds, rest) => some (ofDigits 10 ds, rest)

/-- A year: one to four digits, or a sign and any number of digits. -/
def year? (cs : List Char) : Option (Int × List Char) :=
  match skipBlank cs with
  | '-' :: rest => signedYear (-1) rest
  | '+' :: rest => signedYear 1 rest
  | cs => (number? 4 cs).map fun (n, rest) => ((n : Int), rest)
where
  /-- The digits behind a sign. -/
  signedYear (sign : Int) (cs : List Char) : Option (Int × List Char) :=
    match takeDigits cs.length cs with
    | ([], _) => none
    | (ds, rest) => some (sign * (ofDigits 10 ds : Nat), rest)

/-- A given character, white space allowed before it. -/
def mark? (c : Char) (cs : List Char) : Option (List Char) :=
  match skipBlank cs with
  | d :: rest => if d = c then some rest else none
  | [] => none

/-- A fraction of a second in nanoseconds; digits past the ninth are dropped. -/
def fraction? (cs : List Char) : Option (Nat × List Char) :=
  match cs with
  | '.' :: rest =>
    match takeDigits 9 rest with
    | ([], _) => none
    | (ds, rest) =>
      some (ofDigits 10 ds * Nat.pow 10 (9 - ds.length), rest.dropWhile isDecimal)
  | cs => some (0, cs)

/-- The two digits of the hours or minutes of an offset. -/
def offsetPart? (cs : List Char) : Option (Nat × List Char) :=
  match takeDigits 2 cs with
  | ([a, b], rest) => some (a * 10 + b, rest)
  | _ => none

/-- An offset from universal time in seconds: a letter or `UTC` for none, or a sign, hours and
minutes with colons and white space between them. -/
def offset? (cs : List Char) : Option (Int × List Char) :=
  match cs with
  | 'Z' :: rest | 'z' :: rest => some (0, rest)
  | '+' :: rest => amount 1 rest
  | '-' :: rest | '\u2212' :: rest => amount (-1) rest
  | u :: t :: c :: rest =>
    if [u, t, c].map Char.toUpper = ['U', 'T', 'C'] then some (0, rest) else none
  | _ => none
where
  /-- The hours and minutes behind a sign. -/
  amount (sign : Int) (cs : List Char) : Option (Int × List Char) := do
    let (h, rest) ← offsetPart? cs
    let (m, rest) ← offsetPart? (rest.dropWhile fun c => c = ':' || isBlank c)
    if 60 ≤ m ∨ 24 ≤ h then none
    return (sign * ((h * 3600 + m * 60 : Nat) : Int), rest)

/-- The instant of a local date and time of day. Second 60 prolongs second 59. -/
def ofLocal? (date : Date) (h m s fraction : Nat) (offset : Int) : Option Instant := do
  if !date.exists? || date.year < Date.firstYear || Date.lastYear < date.year then none
  if 24 ≤ h ∨ 60 ≤ m ∨ 61 ≤ s then none
  let (s, fraction) := if s = 60 then (59, fraction + second) else (s, fraction)
  let t : Instant :=
    ⟨date.toDays * daySeconds + ((h * 3600 + m * 60 + s : Nat) : Int) - offset, fraction⟩
  if t.inRange then some t else none

/-- Reads the text of an instant. -/
def parse? (cs : List Char) : Option Instant := do
  let (year, cs) ← year? cs
  let (month, cs) ← number? 2 (← mark? '-' cs)
  let (day, cs) ← number? 2 (← mark? '-' cs)
  let cs ← match cs with
    | 'T' :: rest | 't' :: rest | ' ' :: rest => some rest
    | _ => none
  let (h, cs) ← number? 2 cs
  let (m, cs) ← number? 2 (← mark? ':' cs)
  let (s, cs) ← number? 2 (← mark? ':' cs)
  let (fraction, cs) ← fraction? cs
  let (offset, cs) ← offset? (skipBlank cs)
  if !(skipBlank cs).isEmpty then none
  ofLocal? ⟨year, month, day⟩ h m s fraction offset

end ControlPlane.Instant
