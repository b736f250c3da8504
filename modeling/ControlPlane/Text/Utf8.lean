/-!
# UTF-8

Characters and the bytes that stand for them. `Utf8.encode` writes a list of characters as bytes;
`Utf8.symbols` reads bytes back, one symbol for each character and one for each run of bytes that
begins a character without completing it. A text is well formed when no such broken run occurs
(`Utf8.decode?`), and `Utf8.decodeLossy` puts U+FFFD in the place of each.
-/

namespace ControlPlane

/-- A sequence of bytes: the content of a file, of a request or of a stored value. -/
abbrev Bytes := List UInt8

/-- What stands at one place of a text given as bytes. -/
inductive Symbol where
  /-- A whole character. -/
  | char (c : Char)
  /-- A longest run of bytes that is the start of a character, or a single byte that starts none. -/
  | broken
  deriving Repr, DecidableEq

/-- The character of a symbol, if it is one. -/
def Symbol.char? : Symbol → Option Char
  | .char c => some c
  | .broken => none

namespace Utf8

/-! ## Writing -/

/-- The bytes of one character. -/
def encodeChar (c : Char) : Bytes :=
  let n := c.toNat
  if n < 0x80 then
    [UInt8.ofNat n]
  else if n < 0x800 then
    [UInt8.ofNat (0xC0 + n / 64), UInt8.ofNat (0x80 + n % 64)]
  else if n < 0x10000 then
    [UInt8.ofNat (0xE0 + n / 4096), UInt8.ofNat (0x80 + n / 64 % 64), UInt8.ofNat (0x80 + n % 64)]
  else
    [UInt8.ofNat (0xF0 + n / 262144), UInt8.ofNat (0x80 + n / 4096 % 64),
      UInt8.ofNat (0x80 + n / 64 % 64), UInt8.ofNat (0x80 + n % 64)]

/-- The bytes of a list of characters. -/
def encode (cs : List Char) : Bytes :=
  cs.flatMap encodeChar

/-! ## Reading -/

/-- A character under way: how many bytes are owed, between which bounds the next one must lie, and
the bits read so far. -/
structure Pending where
  owed : Nat
  low : Nat
  high : Nat
  bits : Nat

/-- What the first byte of a character promises; `none` if no character starts with it. -/
def Pending.start? (b : Nat) : Option Pending :=
  if b < 0xC2 then none
  else if b < 0xE0 then some ⟨1, 0x80, 0xBF, b - 0xC0⟩
  else if b = 0xE0 then some ⟨2, 0xA0, 0xBF, 0⟩
  else if b = 0xED then some ⟨2, 0x80, 0x9F, 13⟩
  else if b < 0xF0 then some ⟨2, 0x80, 0xBF, b - 0xE0⟩
  else if b = 0xF0 then some ⟨3, 0x90, 0xBF, 0⟩
  else if b < 0xF4 then some ⟨3, 0x80, 0xBF, b - 0xF0⟩
  else if b = 0xF4 then some ⟨3, 0x80, 0x8F, 4⟩
  else none

/-- The state of a reader between two bytes: the symbols found, latest first, and the character
under way, if any. -/
structure Scan where
  found : List Symbol
  pending : Option Pending

/-- Reads a byte that begins a new symbol. -/
def Scan.fresh (found : List Symbol) (b : Nat) : Scan :=
  if b < 0x80 then ⟨.char (Char.ofNat b) :: found, none⟩
  else match Pending.start? b with
    | some p => ⟨found, some p⟩
    | none => ⟨.broken :: found, none⟩

/-- Reads one byte. A byte that does not continue the character under way breaks it off and begins
a new symbol. -/
def Scan.step (s : Scan) (byte : UInt8) : Scan :=
  let b := byte.toNat
  match s.pending with
  | none => Scan.fresh s.found b
  | some p =>
    if p.low ≤ b ∧ b ≤ p.high then
      let bits := p.bits * 64 + (b - 0x80)
      if p.owed ≤ 1 then ⟨.char (Char.ofNat bits) :: s.found, none⟩
      else ⟨s.found, some ⟨p.owed - 1, 0x80, 0xBF, bits⟩⟩
    else Scan.fresh (.broken :: s.found) b

/-- The symbols found once the bytes are over. -/
def Scan.finish (s : Scan) : List Symbol :=
  match s.pending with
  | none => s.found.reverse
  | some _ => (Symbol.broken :: s.found).reverse

/-- The symbols of a byte text, in order. -/
def symbols (bs : Bytes) : List Symbol :=
  (bs.foldl Scan.step ⟨[], none⟩).finish

/-- The characters of a well-formed byte text. -/
def decode? (bs : Bytes) : Option (List Char) :=
  (symbols bs).mapM Symbol.char?

/-- The characters of any byte text, U+FFFD standing for each broken run. -/
def decodeLossy (bs : Bytes) : List Char :=
  (symbols bs).map fun s => s.char?.getD '\uFFFD'

end Utf8

/-- The bytes of a text. -/
def utf8 (s : String) : Bytes :=
  Utf8.encode s.toList

end ControlPlane
