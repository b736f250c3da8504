import ControlPlane.Http.Escape

/-!
# Hosts

Which texts can stand as the host of an address: names, addresses of four numbers, which may also be
written with fewer, and addresses of eight groups between brackets.
-/

namespace ControlPlane.Http.Host

/-! ## Four numbers -/

/-- The number that digits in a base stand for. -/
def inBase? (base : Nat) (cs : List Char) : Option Nat :=
  (cs.mapM fun c => (Numeral.hex? c).filter (· < base)).map (Numeral.ofDigits base)

/-- A part of an address of four numbers: decimal, octal behind a zero or hexadecimal behind 0x. -/
def part? : List Char → Option Nat
  | [] => none
  | '0' :: 'x' :: cs | '0' :: 'X' :: cs => inBase? 16 cs
  | '0' :: c :: cs => inBase? 8 (c :: cs)
  | cs => inBase? 10 cs

/-- The parts of a text between dots, without an empty one at its end. -/
def dotted (cs : List Char) : List (List Char) :=
  let parts := (split '.' (String.ofList cs)).map String.toList
  if 1 < parts.length && parts.getLast? == some [] then parts.dropLast else parts

/-- Whether a text is meant to be an address of four numbers: it ends in one. -/
def endsInNumber (cs : List Char) : Bool :=
  match (dotted cs).getLast? with
  | some last => (!last.isEmpty && last.all Numeral.isDecimal) || (part? last).isSome
  | none => false

/-- Whether numbers make an address. The last one fills all bytes that the others leave. -/
def fit : List Nat → Bool
  | [] => false
  | ns =>
    let front := ns.dropLast
    ns.length ≤ 4 && front.all (· ≤ 255) && ns.getLast?.getD 0 < Nat.pow 256 (4 - front.length)

/-- Whether a text is an address of four numbers. -/
def isFour (cs : List Char) : Bool :=
  match (dotted cs).mapM part? with
  | some ns => fit ns
  | none => false

/-! ## Eight groups -/

/-- Whether a text is one of four decimal numbers without needless zeros. -/
def isPlainByte (cs : List Char) : Bool :=
  match cs with
  | ['0'] => true
  | '0' :: _ => false
  | [] => false
  | cs => match inBase? 10 cs with
    | some n => n ≤ 255
    | none => false

/-- Whether a text is four plain decimal numbers. -/
def isPlainFour (text : String) : Bool :=
  let parts := split '.' text
  parts.length = 4 && parts.all fun p => isPlainByte p.toList

/-- Whether a text is a group: up to four hexadecimal digits. -/
def isGroup (text : String) : Bool :=
  let cs := text.toList
  !cs.isEmpty && cs.length ≤ 4 && cs.all fun c => (Numeral.hex? c).isSome

/-- How many groups there are. Where the address ends, four numbers may stand for two groups. -/
def groups? (atEnd : Bool) : List String → Option Nat
  | [] => some 0
  | [g] => if isGroup g then some 1 else if atEnd && isPlainFour g then some 2 else none
  | g :: rest => if isGroup g then (groups? atEnd rest).map (· + 1) else none

/-- The text before the first double colon and behind it, if there is one. -/
def cutGap (before : List Char) : List Char → List Char × Option (List Char)
  | ':' :: ':' :: rest => (before.reverse, some rest)
  | c :: rest => cutGap (c :: before) rest
  | [] => (before.reverse, none)

/-- The groups of a text between colons, none for the empty text. -/
def side (cs : List Char) : List String :=
  if cs.isEmpty then [] else split ':' (String.ofList cs)

/-- Whether a text is an address of eight groups. A double colon stands for those that are left
out. -/
def isEight (cs : List Char) : Bool :=
  match cutGap [] cs with
  | (all, none) => groups? true (side all) == some 8
  | (left, some right) =>
    match groups? false (side left), groups? true (side right) with
    | some l, some r => l + r ≤ 7
    | _, _ => false

/-! ## Names -/

/-- The characters that no name of a host has. -/
def isForbidden (c : Char) : Bool :=
  c.toNat ≤ 32 || c.toNat = 127 || "#/:<>?@[\\]^|%".toList.contains c || c = '\uFFFD'

/-- Whether a text can stand as a host. -/
def isValid (cs : List Char) : Bool :=
  match cs with
  | [] => false
  | '[' :: rest => rest.getLast? == some ']' && isEight rest.dropLast
  | cs =>
    match Utf8.decode? (unescape (Utf8.encode cs)) with
    | some name =>
      !name.isEmpty && !name.any isForbidden && (!endsInNumber name || isFour name)
    | none => false

end ControlPlane.Http.Host
