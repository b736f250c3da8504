import ControlPlane.Number.Double
import ControlPlane.Text.Utf8

/-!
# Documents and texts

`Json` is a document as it is written. `Tree` is what is seen in a text before anyone knows what it
should contain: it has the shape of a document, and where the text stops being one it has a fault,
so that a reader who goes through it from left to right meets first what stands first in the text.
-/

namespace ControlPlane

/-- A number: an integer of at most 64 bits with or without sign, or a floating-point number. -/
inductive Number where
  | integer (i : Int)
  | real (x : Double)
  deriving DecidableEq, Repr

/-- A document. -/
inductive Json where
  | null
  | bool (b : Bool)
  | number (n : Number)
  | string (s : String)
  | array (items : List Json)
  | object (members : List (String × Json))
  deriving Repr

instance : Inhabited Json := ⟨.null⟩

/-- The text of a string or of a name; `none` if its form is right but it stands for no
characters. -/
abbrev Spelled := Option String

/-- The shape of a text. A sequence or a map is whole if the text goes on behind its end. -/
inductive Tree where
  | null
  | bool (b : Bool)
  /-- A number; `none` if it is too large. -/
  | number (n : Option Number)
  | string (s : Spelled)
  | sequence (items : List Tree) (whole : Bool)
  | map (members : List (Spelled × Tree)) (whole : Bool)
  /-- An opening brace that no name follows, and what follows it instead. -/
  | nameless (t : Tree)
  /-- No value begins here. -/
  | fault
  deriving Repr

/-- A text to read from. -/
abbrev Text := List Symbol

namespace Text

/-- The text of some characters. -/
def ofChars (cs : List Char) : Text :=
  cs.map .char

/-- The text of a string. -/
def ofString (s : String) : Text :=
  ofChars s.toList

/-- The text that some bytes spell. -/
def ofBytes (bs : Bytes) : Text :=
  Utf8.symbols bs

/-- A text without the blanks, tabs and line ends at its front. -/
def skipSpace : Text → Text
  | .char ' ' :: rest | .char '\t' :: rest | .char '\n' :: rest | .char '\r' :: rest =>
    skipSpace rest
  | text => text

/-- The decimal digits at the front of a text, behind those already read, latest first. -/
def digitsOnto (read : List Nat) : Text → List Nat × Text
  | .char c :: rest =>
    if c.toNat < 48 ∨ 57 < c.toNat then (read.reverse, .char c :: rest)
    else digitsOnto ((c.toNat - 48) :: read) rest
  | text => (read.reverse, text)

/-- The decimal digits at the front of a text, and the rest. -/
def digits (text : Text) : List Nat × Text :=
  digitsOnto [] text

end Text

end ControlPlane
