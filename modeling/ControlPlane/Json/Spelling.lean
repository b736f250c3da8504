import ControlPlane.Json.Basic
import ControlPlane.Text.Numeral

/-!
# Strings in a text

How a string is written between double quotes (`Spelling.write`) and what one reads there
(`Spelling.read`). Reading accepts every escape; a string whose form is right but whose escapes or
bytes stand for no characters has no text.
-/

namespace ControlPlane.Spelling

/-! ## Writing -/

/-- One character inside a string: quotes, backslashes and control characters are escaped. -/
def writeChar (c : Char) : List Char :=
  match c with
  | '"' => ['\\', '"']
  | '\\' => ['\\', '\\']
  | '\n' => ['\\', 'n']
  | '\r' => ['\\', 'r']
  | '\t' => ['\\', 't']
  | '\x08' => ['\\', 'b']
  | '\x0c' => ['\\', 'f']
  | c =>
    if c.toNat < 0x20 then
      ['\\', 'u', '0', '0', Numeral.digit (c.toNat / 16), Numeral.digit (c.toNat % 16)]
    else [c]

/-- A string between double quotes. -/
def write (s : String) : List Char :=
  '"' :: s.toList.flatMap writeChar ++ ['"']

/-! ## Reading -/

/-- What a reader inside a string has to do with the next symbol. -/
inductive Mode where
  /-- Take it as it is. -/
  | plain
  /-- It follows a backslash; the first half of a pair may be waiting for the second one. -/
  | escape (first : Option Nat)
  /-- It is one of the hexadecimal digits that are still owed. -/
  | hex (owed : Nat) (value : Nat) (first : Option Nat)
  /-- It follows the first half of a pair. -/
  | paired (first : Nat)

/-- A string as far as it is read: its characters, latest first, and whether all so far stand for
characters. -/
structure Draft where
  chars : List Char
  sound : Bool

namespace Draft

/-- Takes a character. -/
def push (d : Draft) (c : Char) : Draft :=
  { d with chars := c :: d.chars }

/-- Notes that something stood for no character. -/
def spoil (d : Draft) : Draft :=
  { d with sound := false }

/-- The text of a finished string. -/
def text (d : Draft) : Spelled :=
  if d.sound then some (String.ofList d.chars.reverse) else none

end Draft

/-- The character that a single letter behind a backslash stands for. -/
def shortEscape? : Char → Option Char
  | '"' => some '"'
  | '\\' => some '\\'
  | '/' => some '/'
  | 'b' => some '\x08'
  | 'f' => some '\x0c'
  | 'n' => some '\n'
  | 'r' => some '\r'
  | 't' => some '\t'
  | _ => none

/-- Whether a number is the first half of a pair. -/
def isFirstHalf (n : Nat) : Bool :=
  0xD800 ≤ n && n < 0xDC00

/-- Whether a number is the second half of a pair. -/
def isSecondHalf (n : Nat) : Bool :=
  0xDC00 ≤ n && n < 0xE000

/-- Takes the number of an escape behind the first half of a pair, if one is waiting. -/
def takeNumber (d : Draft) (n : Nat) (first : Option Nat) : Draft × Mode :=
  match first with
  | some h =>
    if isSecondHalf n then
      (d.push (Char.ofNat (0x10000 + (h - 0xD800) * 1024 + (n - 0xDC00))), .plain)
    else (d.spoil, .plain)
  | none =>
    if isFirstHalf n then (d, .paired n)
    else if isSecondHalf n then (d.spoil, .plain)
    else (d.push (Char.ofNat n), .plain)

/-- What comes of one character inside a string. -/
inductive Outcome where
  /-- The string goes on. -/
  | more (d : Draft) (m : Mode)
  /-- The string ends here. -/
  | done (d : Draft)
  /-- No string has this character here. -/
  | stop

/-- Reads a character that follows no backslash. -/
def stepPlain (d : Draft) (c : Char) : Outcome :=
  if c = '"' then .done d
  else if c = '\\' then .more d (.escape none)
  else if c.toNat < 0x20 then .stop
  else .more (d.push c) .plain

/-- Reads one character. -/
def step (d : Draft) (m : Mode) (c : Char) : Outcome :=
  match m with
  | .plain => stepPlain d c
  | .paired first => if c = '\\' then .more d (.escape (some first)) else stepPlain d.spoil c
  | .escape first =>
    if c = 'u' then .more d (.hex 4 0 first)
    else match shortEscape? c with
      | some e => .more ((if first.isSome then d.spoil else d).push e) .plain
      | none => .stop
  | .hex owed value first =>
    match Numeral.hex? c with
    | none => .stop
    | some h =>
      let n := value * 16 + h
      if owed ≤ 1 then
        let (d, m) := takeNumber d n first
        .more d m
      else .more d (.hex (owed - 1) n first)

/-- Reads a string that is under way up to the quote at its end; `none` if it has no end. -/
def readOn (d : Draft) (m : Mode) : Text → Option (Spelled × Text)
  | [] => none
  | .broken :: rest =>
    match m with
    | .plain | .paired _ => readOn d.spoil .plain rest
    | _ => none
  | .char c :: rest =>
    match step d m c with
    | .more d m => readOn d m rest
    | .done d => some (d.text, rest)
    | .stop => none

/-- Reads a string behind the quote at its start. -/
def read (text : Text) : Option (Spelled × Text) :=
  readOn ⟨[], true⟩ .plain text

end ControlPlane.Spelling
