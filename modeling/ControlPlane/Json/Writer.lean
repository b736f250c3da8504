import ControlPlane.Json.Spelling
import ControlPlane.Number.Shortest

/-!
# Writing documents

The text of a document without any blanks, members in the order they have.
-/

namespace ControlPlane

/-- Floating-point numbers in a document: a point alone from `0.00001` to just below `10 ^ 16`,
otherwise an exponent with its sign. -/
def Number.layout : Double.Layout := ⟨-5, 16, true⟩

/-- The text of a number. -/
def Number.render : Number → List Char
  | .integer i => Numeral.signed i
  | .real x => Double.render Number.layout x

namespace Json

mutual

/-- The text of a document. -/
def render : Json → List Char
  | .null => ['n', 'u', 'l', 'l']
  | .bool true => ['t', 'r', 'u', 'e']
  | .bool false => ['f', 'a', 'l', 's', 'e']
  | .number n => n.render
  | .string s => Spelling.write s
  | .array items => '[' :: renderItems items ++ [']']
  | .object members => '\x7b' :: renderMembers members ++ ['\x7d']

/-- The texts of some documents, with commas between them. -/
def renderItems : List Json → List Char
  | [] => []
  | [j] => render j
  | j :: rest => render j ++ ',' :: renderItems rest

/-- The texts of some members, with commas between them. -/
def renderMembers : List (String × Json) → List Char
  | [] => []
  | [(name, j)] => Spelling.write name ++ ':' :: render j
  | (name, j) :: rest => Spelling.write name ++ ':' :: render j ++ ',' :: renderMembers rest

end

/-- The text of a document as a string. -/
def toText (j : Json) : String :=
  String.ofList j.render

/-- The text of a document as bytes. -/
def toBytes (j : Json) : Bytes :=
  Utf8.encode j.render

end Json

end ControlPlane
