import ControlPlane.Http.Host

/-!
# Addresses

Whether a text can be used as the address of a request over HTTP.
-/

namespace ControlPlane.Http.Url

/-- Whether a character ends the host and the port. -/
def endsAuthority (c : Char) : Bool :=
  c = '/' || c = '\\' || c = '?' || c = '#'

/-- The text behind the last at sign. -/
def behindUser (authority : List Char) : List Char :=
  (authority.reverse.takeWhile (· != '@')).reverse

/-- The host in front of a port. A colon between brackets belongs to the host. -/
def splitHost (inside : Bool) (host : List Char) : List Char → List Char × Option (List Char)
  | [] => (host.reverse, none)
  | c :: rest =>
    if c = ':' && !inside then (host.reverse, some rest)
    else splitHost (if c = '[' then true else if c = ']' then false else inside) (c :: host) rest

/-- Whether a text can stand as a port. -/
def isPort (cs : List Char) : Bool :=
  match cs.mapM Numeral.decimal? with
  | some ds => Numeral.ofDigits 10 ds ≤ 65535
  | none => false

/-- Whether a text is the address of a request. Tabs and line ends in it are not looked at. -/
def isValid (text : String) : Bool :=
  let cs := text.toList.filter fun c => c != '\t' && c != '\n' && c != '\r'
  match cs with
  | 'h' :: 't' :: 't' :: 'p' :: ':' :: rest =>
    let rest := rest.dropWhile fun c => c = '/' || c = '\\'
    let authority := rest.takeWhile fun c => !endsAuthority c
    let (host, port) := splitHost false [] (behindUser authority)
    Host.isValid host && (port.map isPort).getD true
  | _ => false

end ControlPlane.Http.Url
