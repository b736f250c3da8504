import ControlPlane.Json.Fault
import ControlPlane.Json.Reader
import ControlPlane.Time.Rfc3339

/-!
# From a shape to a value

A `Decoder` finds a value in a tree, going from left to right, so that of two faults the one that
comes first in the text is told. A `Codec` joins a decoder with the way back. Here are the codecs of
simple values, of lists, of enumerations and of arbitrary documents; records follow in
`ControlPlane.Json.Record`.
-/

namespace ControlPlane

/-- How deep sequences, maps and records may be nested in a text. -/
def Tree.depthLimit : Nat := 127

/-- Finds a value in a tree in which `room` more levels may be nested. -/
abbrev Decoder (α : Type) := (room : Nat) → Tree → Except Fault α

/-- A way to find a value in a tree and a way to write it. -/
structure Codec (α : Type) where
  read : Decoder α
  write : α → Json

/-! ## Refusals -/

/-- The fault of a tree that is of another kind than wanted. -/
def Tree.refuse (wanted : String) : Tree → Fault
  | .null => .shape [] (.wrongType .null wanted)
  | .bool b => .shape [] (.wrongType (.bool b) wanted)
  | .number (some n) => .shape [] (.wrongType (.number n) wanted)
  | .string (some s) => .shape [] (.wrongType (.string s) wanted)
  | .sequence _ _ => .shape [] (.wrongType .sequence wanted)
  | .map _ _ | .nameless _ => .shape [] (.wrongType .map wanted)
  | .number none | .string none | .fault => .malformed

/-- A result of a part, seen from the whole. -/
def Step.within {α : Type} (s : Step) : Except Fault α → Except Fault α
  | .ok a => .ok a
  | .error f => .error (f.under s)

namespace Codec

/-! ## Simple values -/

/-- Text. -/
def string : Codec String where
  read _ t := match t with
    | .string (some s) => .ok s
    | t => .error (t.refuse "a string")
  write := .string

/-- True or false. -/
def bool : Codec Bool where
  read _ t := match t with
    | .bool b => .ok b
    | t => .error (t.refuse "a boolean")
  write := .bool

/-- An integer between bounds that is kept as `α`. -/
def bounded {α : Type} (wanted : String) (least greatest : Int) (ofInt : Int → α)
    (toInt : α → Int) : Codec α where
  read _ t := match t with
    | .number (some (.integer i)) =>
      if least ≤ i ∧ i ≤ greatest then .ok (ofInt i)
      else .error (.shape [] (.outOfRange i wanted))
    | t => .error (t.refuse wanted)
  write a := .number (.integer (toInt a))

/-- A natural number of 16 bits. -/
def u16 : Codec UInt16 :=
  bounded "u16" 0 65535 (fun i => UInt16.ofNat i.toNat) (fun n => n.toNat)

/-- A natural number of 32 bits. -/
def u32 : Codec UInt32 :=
  bounded "u32" 0 4294967295 (fun i => UInt32.ofNat i.toNat) (fun n => n.toNat)

/-- A natural number of 64 bits. -/
def u64 : Codec UInt64 :=
  bounded "u64" 0 18446744073709551615 (fun i => UInt64.ofNat i.toNat) (fun n => n.toNat)

/-- An integer of 32 bits. -/
def i32 : Codec Int32 :=
  bounded "i32" (-2147483648) 2147483647 Int32.ofInt Int32.toInt

/-- A floating-point number, also written as an integer. -/
def double : Codec Double where
  read _ t := match t with
    | .number (some (.real x)) => .ok x
    | .number (some (.integer i)) => .ok (Double.ofInt i)
    | t => .error (t.refuse "f64")
  write x := .number (.real x)

/-- An instant, written as text. -/
def instant : Codec Instant where
  read _ t := match t with
    | .string (some s) =>
      match Instant.parse? s.toList with
      | some time => .ok time
      | none => .error (.shape [] .badTime)
    | t => .error (t.refuse "an RFC 3339 formatted date and time string")
  write time := .string (String.ofList time.render)

/-! ## Lists -/

/-- Reads the items of a sequence, the first one having index `i`. -/
def readItems {α : Type} (read : Decoder α) (room : Nat) (whole : Bool) :
    (i : Nat) → List Tree → Except Fault (List α)
  | _, [] => if whole then .ok [] else .error .malformed
  | i, t :: rest => do
    let a ← (Step.index i).within (read room t)
    let as ← readItems read room whole (i + 1) rest
    return a :: as

/-- A list, written as a sequence. -/
def list {α : Type} (c : Codec α) : Codec (List α) where
  read room t := match t with
    | .sequence items whole =>
      if room = 0 then .error .malformed else readItems c.read (room - 1) whole 0 items
    | t => .error (t.refuse "a sequence")
  write as := .array (as.map c.write)

/-! ## Enumerations -/

/-- The value that a name stands for among the given ones. -/
def named? {α : Type} (names : List (String × α)) (name : String) : Except Fault α :=
  match names.find? (·.1 == name) with
  | some (_, a) => .ok a
  | none => .error (.shape [] (.unknownName name (names.map (·.1))))

/-- A value with a name of its own, written as the name. It may also stand as the name of the only
member of a map, with a null behind it. -/
def enumeration {α : Type} (names : List (String × α)) (nameOf : α → String) : Codec α where
  read room t := match t with
    | .string (some s) => named? names s
    | .map members whole =>
      if room = 0 then .error .malformed
      else match members with
        | (some s, t) :: rest => do
          let a ← named? names s
          match t with
          | .null => if whole && rest.isEmpty then .ok a else .error .malformed
          | t => .error ((t.refuse "unit").under (.field s))
        | _ => .error .malformed
    | .nameless t =>
      if room = 0 then .error .malformed else .error (t.refuse "variant identifier")
    | _ => .error .malformed
  write a := .string (nameOf a)

/-! ## Arbitrary documents -/

/-- Puts a member into members that are in the order of their names, in the place of one with the
same name. -/
def insertMember (name : String) (j : Json) : List (String × Json) → List (String × Json)
  | [] => [(name, j)]
  | (other, k) :: rest =>
    if name < other then (name, j) :: (other, k) :: rest
    else if name = other then (name, j) :: rest
    else (other, k) :: insertMember name j rest

mutual

/-- Reads any document. Its members come in the order of their names, and of two with the same name
the later one counts. -/
def readJson : (room : Nat) → Tree → Except Fault Json
  | _, .null => .ok .null
  | _, .bool b => .ok (.bool b)
  | _, .number (some n) => .ok (.number n)
  | _, .string (some s) => .ok (.string s)
  | 0, _ => .error .malformed
  | room + 1, .sequence items whole =>
    if whole then do
      let js ← readJsonItems room items
      return .array js
    else .error .malformed
  | room + 1, .map members whole =>
    if whole then do
      let ms ← readJsonMembers room members []
      return .object ms
    else .error .malformed
  | _, _ => .error .malformed

/-- Reads the items of a sequence. -/
def readJsonItems : (room : Nat) → List Tree → Except Fault (List Json)
  | _, [] => .ok []
  | room, t :: rest => do
    let j ← readJson room t
    let js ← readJsonItems room rest
    return j :: js

/-- Reads the members of a map into members already read. -/
def readJsonMembers : (room : Nat) → List (Spelled × Tree) → List (String × Json) →
    Except Fault (List (String × Json))
  | _, [], read => .ok read
  | room, (some name, t) :: rest, read => do
    let j ← readJson room t
    readJsonMembers room rest (insertMember name j read)
  | _, (none, _) :: _, _ => .error .malformed

end

/-- Any document. -/
def json : Codec Json where
  read := readJson
  write j := j

/-! ## Texts -/

/-- The value at the front of a text, whatever follows it. -/
def readFront {α : Type} (c : Codec α) (text : Text) : Except Fault α :=
  c.read Tree.depthLimit (Tree.ofText text).1

/-- The value of a text that holds nothing but it and white space. -/
def readText {α : Type} (c : Codec α) (text : Text) : Except Fault α := do
  let (t, rest) := Tree.ofText text
  let a ← c.read Tree.depthLimit t
  match rest with
  | some rest => if (Text.skipSpace rest).isEmpty then .ok a else .error .malformed
  | none => .error .malformed

/-- Reads a value from a string. -/
def ofString {α : Type} (c : Codec α) (s : String) : Except Fault α :=
  c.readText (Text.ofString s)

/-- Reads a value from bytes. -/
def ofBytes {α : Type} (c : Codec α) (bs : Bytes) : Except Fault α :=
  c.readText (Text.ofBytes bs)

/-- Writes a value as a string. -/
def toText {α : Type} (c : Codec α) (a : α) : String :=
  (c.write a).toText

/-- Writes a value as bytes. -/
def toBytes {α : Type} (c : Codec α) (a : α) : Bytes :=
  (c.write a).toBytes

end Codec

end ControlPlane
