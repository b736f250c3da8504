import ControlPlane.Json.Number
import ControlPlane.Json.Spelling

/-!
# From a text to its shape

`Tree.ofText` reads one value at the front of a text. It never fails: what is wrong with the text
stands in the tree at its place, and then there is no rest to go on with.
-/

namespace ControlPlane.Tree

/-- The rest of a text behind a word, if it begins with the word. -/
def word? : List Char → Text → Option Text
  | [], text => some text
  | c :: cs, .char d :: rest => if c = d then word? cs rest else none
  | _ :: _, _ => none

/-- A value written as a word of which the first letter is read. -/
def ofWord (t : Tree) (letters : List Char) (text : Text) : Tree × Option Text :=
  match word? letters text with
  | some rest => (t, some rest)
  | none => (.fault, none)

/-- A number whose sign is read. -/
def ofNumber (negative : Bool) (text : Text) : Tree × Option Text :=
  match Number.parts? negative text with
  | some (p, rest) => (.number (Number.ofParts? p), some rest)
  | none => (.fault, none)

mutual

/-- Reads the value at the front of a text. Each step takes one unit of `fuel`. -/
def ofTextFueled : (fuel : Nat) → Text → Tree × Option Text
  | 0, _ => (.fault, none)
  | fuel + 1, text =>
    match Text.skipSpace text with
    | .char 'n' :: rest => ofWord .null ['u', 'l', 'l'] rest
    | .char 't' :: rest => ofWord (.bool true) ['r', 'u', 'e'] rest
    | .char 'f' :: rest => ofWord (.bool false) ['a', 'l', 's', 'e'] rest
    | .char '"' :: rest =>
      match Spelling.read rest with
      | some (s, rest) => (.string s, some rest)
      | none => (.fault, none)
    | .char '[' :: rest =>
      match Text.skipSpace rest with
      | .char ']' :: rest => (.sequence [] true, some rest)
      | rest => itemsOnto fuel [] rest
    | .char '\x7b' :: rest =>
      match Text.skipSpace rest with
      | .char '\x7d' :: rest => (.map [] true, some rest)
      | .char '"' :: rest => membersOnto fuel [] rest
      | rest => (.nameless (ofTextFueled fuel rest).1, none)
    | .char '-' :: rest => ofNumber true rest
    | .char c :: rest => if c.isDigit then ofNumber false (.char c :: rest) else (.fault, none)
    | _ => (.fault, none)

/-- Reads the items of a sequence behind those already read, latest first. -/
def itemsOnto : (fuel : Nat) → List Tree → Text → Tree × Option Text
  | 0, read, _ => (.sequence read.reverse false, none)
  | fuel + 1, read, text =>
    match ofTextFueled fuel text with
    | (t, none) => (.sequence (t :: read).reverse false, none)
    | (t, some rest) =>
      match Text.skipSpace rest with
      | .char ',' :: rest => itemsOnto fuel (t :: read) rest
      | .char ']' :: rest => (.sequence (t :: read).reverse true, some rest)
      | _ => (.sequence (t :: read).reverse false, none)

/-- Reads the members of a map behind those already read, latest first; the quote before the next
name is read. -/
def membersOnto : (fuel : Nat) → List (Spelled × Tree) → Text → Tree × Option Text
  | 0, read, _ => (.map read.reverse false, none)
  | fuel + 1, read, text =>
    match Spelling.read text with
    | none => (.map read.reverse false, none)
    | some (name, rest) =>
      match Text.skipSpace rest with
      | .char ':' :: rest =>
        match ofTextFueled fuel rest with
        | (t, none) => (.map ((name, t) :: read).reverse false, none)
        | (t, some rest) =>
          match Text.skipSpace rest with
          | .char ',' :: rest =>
            match Text.skipSpace rest with
            | .char '"' :: rest => membersOnto fuel ((name, t) :: read) rest
            | _ => (.map ((name, t) :: read).reverse false, none)
          | .char '\x7d' :: rest => (.map ((name, t) :: read).reverse true, some rest)
          | _ => (.map ((name, t) :: read).reverse false, none)
      | _ => (.map ((name, .fault) :: read).reverse false, none)

end

/-- The value at the front of a text and, if the text goes on behind it, the rest. Two steps never
pass without taking a symbol. -/
def ofText (text : Text) : Tree × Option Text :=
  ofTextFueled (2 * text.length + 2) text

end ControlPlane.Tree
