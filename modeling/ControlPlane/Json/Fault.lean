import ControlPlane.Json.Writer
import ControlPlane.Text.Quoted

/-!
# Faults of a text

Why a text does not hold a value of the wanted kind: it is no document at all, or it is one of the
wrong shape, and then where and in which way.
-/

namespace ControlPlane

/-- One step on the way from a document to one of its parts. -/
inductive Step where
  | field (name : String)
  | index (i : Nat)
  deriving DecidableEq, Repr

/-- The kind of value found where another kind was wanted. -/
inductive Found where
  | null
  | bool (b : Bool)
  | number (n : Number)
  | string (s : String)
  | sequence
  | map
  deriving DecidableEq, Repr

/-- What is wrong with a value. -/
inductive Cause where
  /-- It is of another kind. -/
  | wrongType (found : Found) (wanted : String)
  /-- It is an integer that the wanted kind cannot hold. -/
  | outOfRange (i : Int) (wanted : String)
  /-- It is a record without a member that it must have. -/
  | missing (name : String)
  /-- It is a record with a member that it has already. -/
  | duplicate (name : String)
  /-- It is none of the names of an enumeration. -/
  | unknownName (name : String) (known : List String)
  /-- It is a record written as a sequence that is too short. -/
  | wrongLength (length : Nat) (record : String) (size : Nat)
  /-- It is no time. -/
  | badTime
  deriving DecidableEq, Repr

/-- Why a text could not be read. -/
inductive Fault where
  /-- The text is no document. -/
  | malformed
  /-- The part of the document at the end of `path` is wrong. -/
  | shape (path : List Step) (cause : Cause)
  deriving DecidableEq, Repr

/-- The wording of what was found. -/
def Found.describe : Found → String
  | .null => "null"
  | .bool true => "boolean `true`"
  | .bool false => "boolean `false`"
  | .number (.integer i) => "integer `" ++ String.ofList (Numeral.signed i) ++ "`"
  | .number (.real x) =>
    "floating point `" ++ String.ofList (Double.render Number.layout x) ++ "`"
  | .string s => "string " ++ Text.quoted s
  | .sequence => "sequence"
  | .map => "map"

/-- A name between the quotes used for names. -/
def ticked (name : String) : String :=
  "`" ++ name ++ "`"

/-- The wording of a cause. -/
def Cause.message : Cause → String
  | .wrongType found wanted =>
    let x := found.describe
    s!"invalid type: {x}, expected {wanted}"
  | .outOfRange i wanted =>
    let x := (Found.number (.integer i)).describe
    s!"invalid value: {x}, expected {wanted}"
  | .missing name => "missing field " ++ ticked name
  | .duplicate name => "duplicate field " ++ ticked name
  | .unknownName name known =>
    "unknown variant " ++ ticked name ++ ", expected one of " ++
      ", ".intercalate (known.map ticked)
  | .wrongLength length record size =>
    let n := Numeral.text length
    let m := Numeral.text size
    let elements := if size = 1 then "element" else "elements"
    s!"invalid length {n}, expected struct {record} with {m} {elements}"
  | .badTime => "invalid timestamp"

/-- The wording of a fault, without its place. -/
def Fault.message : Fault → String
  | .malformed => "malformed JSON"
  | .shape _ cause => cause.message

/-- The text of a path behind a place that is already named. -/
def Step.renderFrom : List Step → String
  | [] => ""
  | .field name :: rest => "." ++ name ++ renderFrom rest
  | .index i :: rest => "[" ++ Numeral.text i ++ "]" ++ renderFrom rest

/-- The text of a path: names joined by points, indices in brackets. -/
def Step.render : List Step → String
  | .field name :: rest => name ++ renderFrom rest
  | path => renderFrom path

/-- A fault of a part, seen from the whole. -/
def Fault.under (s : Step) : Fault → Fault
  | .malformed => .malformed
  | .shape path cause => .shape (s :: path) cause

end ControlPlane
