import ControlPlane.Text.Utf8
import ControlPlane.Text.Numeral

/-!
# Base64

Bytes as text over sixty-four symbols, four symbols for three bytes, the last group filled up with
`=`. `Base64.encode` writes, `Base64.decode` reads exactly what is written and says for anything
else what is wrong with it.
-/

namespace ControlPlane.Base64

/-! ## Symbols -/

/-- The symbol of a number below 64. -/
def symbol (n : Nat) : Char :=
  if n < 26 then Char.ofNat (65 + n)
  else if n < 52 then Char.ofNat (71 + n)
  else if n < 62 then Char.ofNat (n - 4)
  else if n = 62 then '+'
  else '/'

/-- The number whose symbol is the given byte. -/
def value? (byte : UInt8) : Option Nat :=
  let b := byte.toNat
  if 65 ≤ b ∧ b ≤ 90 then some (b - 65)
  else if 97 ≤ b ∧ b ≤ 122 then some (b - 71)
  else if 48 ≤ b ∧ b ≤ 57 then some (b + 4)
  else if b = 43 then some 62
  else if b = 47 then some 63
  else none

/-- The byte that fills up the last group. -/
def pad : UInt8 := 61

/-! ## Writing -/

/-- Writes bytes behind a text that is held with its last character first. -/
def encodeOnto (written : List Char) : Bytes → List Char
  | a :: b :: c :: rest =>
    let n := a.toNat * 65536 + b.toNat * 256 + c.toNat
    encodeOnto
      (symbol (n % 64) :: symbol (n / 64 % 64) :: symbol (n / 4096 % 64) :: symbol (n / 262144)
        :: written) rest
  | [a, b] =>
    let n := a.toNat * 1024 + b.toNat * 4
    '=' :: symbol (n % 64) :: symbol (n / 64 % 64) :: symbol (n / 4096) :: written
  | [a] =>
    let n := a.toNat * 16
    '=' :: '=' :: symbol (n % 64) :: symbol (n / 64) :: written
  | [] => written

/-- The text of some bytes. -/
def encode (bs : Bytes) : String :=
  String.ofList (encodeOnto [] bs).reverse

/-! ## Reading -/

/-- Why a text stands for no bytes. -/
inductive Error where
  /-- A byte that is no symbol, or a fill character where none can be. -/
  | badSymbol (byte : UInt8) (offset : Nat)
  /-- The last group has fewer than two symbols. -/
  | badLength (length : Nat)
  /-- The last group is not filled up to four. -/
  | badPadding
  /-- The last symbol carries bits that belong to no byte. -/
  | badLastSymbol (byte : UInt8) (offset : Nat)
  deriving DecidableEq, Repr

/-- The wording of an error. -/
def Error.message : Error → String
  | .badSymbol byte offset =>
    let b := Numeral.text byte.toNat
    let i := Numeral.text offset
    s!"Invalid symbol {b}, offset {i}."
  | .badLength length =>
    let n := Numeral.text length
    s!"Invalid input length: {n}"
  | .badPadding => "Invalid padding"
  | .badLastSymbol byte offset =>
    let b := Numeral.text byte.toNat
    let i := Numeral.text offset
    s!"Invalid last symbol {b}, offset {i}."

/-- The number of the symbol at an offset. -/
def valueAt (byte : UInt8) (offset : Nat) : Except Error Nat :=
  match value? byte with
  | some n => .ok n
  | none => .error (.badSymbol byte offset)

/-- The symbols of the last group, up to the fill characters, and how many of those follow. -/
def lastGroup (start : Nat) : (index : Nat) → Bytes → Except Error (List (UInt8 × Nat) × Nat)
  | _, [] => .ok ([], 0)
  | index, byte :: rest =>
    if byte = pad then
      if index < 2 ∨ rest.any (· ≠ pad) then .error (.badSymbol pad (start + index))
      else .ok ([], rest.length + 1)
    else do
      let n ← valueAt byte (start + index)
      let (symbols, fill) ← lastGroup start (index + 1) rest
      return ((byte, n) :: symbols, fill)

/-- The bytes of the last group of a text. -/
def decodeLast (start : Nat) (group : Bytes) : Except Error Bytes := do
  let (symbols, fill) ← lastGroup start 0 group
  if symbols.length < 2 then throw (.badLength (start + symbols.length))
  if (symbols.length + fill) % 4 ≠ 0 then throw .badPadding
  match symbols with
  | [(_, a), (y, b)] =>
    if b % 16 ≠ 0 then throw (.badLastSymbol y (start + 1))
    return [UInt8.ofNat (a * 4 + b / 16)]
  | [(_, a), (_, b), (z, c)] =>
    if c % 4 ≠ 0 then throw (.badLastSymbol z (start + 2))
    return [UInt8.ofNat (a * 4 + b / 16), UInt8.ofNat (b % 16 * 16 + c / 4)]
  | [(_, a), (_, b), (_, c), (_, d)] =>
    return [UInt8.ofNat (a * 4 + b / 16), UInt8.ofNat (b % 16 * 16 + c / 4),
      UInt8.ofNat (c % 4 * 64 + d)]
  | _ => return []

/-- Reads groups of four, the bytes read before them being held latest first. -/
def decodeOnto (start : Nat) (read : Bytes) : Bytes → Except Error Bytes
  | w :: x :: y :: z :: more :: rest => do
    let a ← valueAt w start
    let b ← valueAt x (start + 1)
    let c ← valueAt y (start + 2)
    let d ← valueAt z (start + 3)
    decodeOnto (start + 4)
      (UInt8.ofNat (c % 4 * 64 + d) :: UInt8.ofNat (b % 16 * 16 + c / 4)
        :: UInt8.ofNat (a * 4 + b / 16) :: read) (more :: rest)
  | [] => .ok read.reverse
  | group => do
    let bytes ← decodeLast start group
    return read.reverse ++ bytes

/-- The byte that is reported before anything else: one behind the last whole group that is neither
a symbol nor a fill character. -/
def straggler? (bs : Bytes) : Option UInt8 :=
  if bs.length % 4 = 1 then
    bs.getLast?.filter fun b => b ≠ pad && (value? b).isNone
  else none

/-- The bytes that a text stands for. -/
def decode (text : String) : Except Error Bytes :=
  let bs := utf8 text
  match straggler? bs with
  | some b => .error (.badSymbol b (bs.length - 1))
  | none => decodeOnto 0 [] bs

end ControlPlane.Base64
