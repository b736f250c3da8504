import ControlPlane.Text.Numeral
import ControlPlane.Text.Utf8

/-!
# Escapes

How a byte is written in an address: a percent sign and two hexadecimal digits. In the query of an
address a plus sign stands for a blank as well.
-/

namespace ControlPlane.Http

/-- The value of a byte that is a hexadecimal digit. -/
def hexDigit? (b : UInt8) : Option Nat :=
  Numeral.hex? (Char.ofNat b.toNat)

/-- The bytes that escaped ones stand for. A percent sign without two digits behind it stands for
itself. -/
def unescape : Bytes → Bytes
  | 37 :: hi :: lo :: rest =>
    match hexDigit? hi, hexDigit? lo with
    | some h, some l => UInt8.ofNat (16 * h + l) :: unescape rest
    | _, _ => 37 :: unescape (hi :: lo :: rest)
  | b :: rest => b :: unescape rest
  | [] => []

/-- The text that an escaped one stands for, if it is well formed. -/
def unescapeText? (s : String) : Option String :=
  (Utf8.decode? (unescape (utf8 s))).map String.ofList

/-! ## Queries -/

/-- Blanks in the place of plus signs. -/
def plusToBlank (s : String) : String :=
  s.map fun c => if c = '+' then ' ' else c

/-- The text of a name or a value in a query. What is not well formed in it becomes U+FFFD. -/
def unescapeForm (s : String) : String :=
  String.ofList (Utf8.decodeLossy (unescape (utf8 (plusToBlank s))))

/-- The parts of a text between the places where a character stands, behind a part under way that is
given from its end. -/
def splitFrom (sep : Char) (part : List Char) : List Char → List String
  | [] => [String.ofList part.reverse]
  | c :: rest =>
    if c = sep then String.ofList part.reverse :: splitFrom sep [] rest
    else splitFrom sep (c :: part) rest

/-- The parts of a text between the places where a character stands. -/
def split (sep : Char) (s : String) : List String :=
  splitFrom sep [] s.toList

/-- The text before the first place of a character, and the text behind it if there is one. -/
def cutAt (sep : Char) (s : String) : String × Option String :=
  let (before, after) := s.toList.span (· != sep)
  (String.ofList before, after.tail?.map String.ofList)

/-- The names and values of a query. A name without an equals sign has the empty value. -/
def formPairs (query : String) : List (String × String) :=
  ((split '&' query).filter (· ≠ "")).map fun pair =>
    let (name, value) := cutAt '=' pair
    (unescapeForm name, unescapeForm (value.getD ""))

end ControlPlane.Http
