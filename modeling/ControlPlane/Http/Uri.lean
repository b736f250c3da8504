import ControlPlane.Text.Utf8

/-!
# Uniform resource identifiers

Which texts name something on a network: a scheme, an authority and a path with a query, an
authority alone, or a path with a query alone. Only the form is looked at (`Uri.isValid`).
-/

namespace ControlPlane.Http.Uri

/-- How many bytes an identifier may have. -/
def maxLength : Nat := 65534

/-- How many characters a scheme may have. -/
def maxScheme : Nat := 64

/-- How many colons may stand in an authority in a row of numbers. -/
def maxColons : Nat := 8

/-! ## Characters -/

/-- The characters of a scheme. -/
def inScheme (c : Char) : Bool :=
  c.isAlphanum || c = '+' || c = '-' || c = '.'

/-- The characters that may stand in an identifier without being escaped. -/
def inAuthority (c : Char) : Bool :=
  c.isAlphanum || "!#$&'()*+,-./:;=?@[]_~".toList.contains c

/-- The characters of a path. -/
def inPath (c : Char) : Bool :=
  let n := c.toNat
  c = '!' || (0x24 ≤ n && n ≤ 0x3B) || c = '=' || (0x40 ≤ n && n ≤ 0x5F) ||
    (0x61 ≤ n && n ≤ 0x7A) || c = '|' || c = '~' || 0x7F ≤ n || c = '"' || c = '\x7b' || c = '\x7d'

/-- The characters of a query. -/
def inQuery (c : Char) : Bool :=
  let n := c.toNat
  c = '!' || (0x24 ≤ n && n ≤ 0x3B) || c = '=' || 0x3F ≤ n

/-! ## Authorities -/

/-- What is known of an authority from its front. A percent sign may stand before an at sign or
within brackets. -/
structure Scan where
  colons : Nat := 0
  opened : Bool := false
  closed : Bool := false
  percent : Bool := false
  endsInAt : Bool := false

/-- Reads one character of an authority. -/
def Scan.step (s : Scan) (c : Char) : Option Scan :=
  let s := { s with endsInAt := false }
  match c with
  | ':' => if maxColons ≤ s.colons then none else some { s with colons := s.colons + 1 }
  | '[' => if s.percent || s.opened then none else some { s with opened := true }
  | ']' =>
    if !s.opened || s.closed then none
    else some { s with closed := true, colons := 0, percent := false }
  | '@' => some { s with colons := 0, percent := false, endsInAt := true }
  | '%' => some { s with percent := true }
  | c => if inAuthority c then some s else none

/-- Whether an authority may end where a reader stands. -/
def Scan.final (s : Scan) : Bool :=
  s.opened = s.closed && s.colons ≤ 1 && !s.endsInAt && !s.percent

/-- Whether a text is an authority. -/
def isAuthority (cs : List Char) : Bool :=
  match cs.foldlM Scan.step {} with
  | some s => s.final
  | none => false

/-- Whether a character ends an authority. -/
def endsAuthority (c : Char) : Bool :=
  c = '/' || c = '?' || c = '#'

/-! ## Identifiers -/

/-- Whether a text is a path with a query. What follows a number sign is not looked at. -/
def isPath (cs : List Char) : Bool :=
  let (path, rest) := cs.span fun c => c != '?' && c != '#'
  path.all inPath && match rest with
    | '?' :: query => (query.takeWhile (· != '#')).all inQuery
    | _ => true

/-- The text behind a scheme, if there is a scheme; nothing if the scheme is too long. -/
def behindScheme (cs : List Char) : Option (Option (List Char)) :=
  let (scheme, rest) := cs.span inScheme
  match rest with
  | ':' :: '/' :: '/' :: rest => if maxScheme < scheme.length then none else some (some rest)
  | _ => some none

/-- Whether a text is an identifier. -/
def isValid (text : String) : Bool :=
  let cs := text.toList
  if cs.isEmpty || maxLength < (utf8 text).length then false
  else if text = "*" then true
  else if cs.head? = some '/' then isPath cs
  else match behindScheme cs with
    | none => false
    | some none => !cs.any endsAuthority && isAuthority cs
    | some (some rest) =>
      let (authority, path) := rest.span fun c => !endsAuthority c
      !authority.isEmpty && isAuthority authority && isPath path

end ControlPlane.Http.Uri
