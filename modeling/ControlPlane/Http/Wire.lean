import ControlPlane.Http.Message
import ControlPlane.Http.Reason

/-!
# The wire

Requests and responses as they are sent: a first line, headers, an empty line and a body.
-/

namespace ControlPlane.Http

/-- A request without its body. Names of headers are in lower case. -/
structure Head where
  method : String
  target : String
  headers : List (String × String)
  deriving DecidableEq, Repr

namespace Head

/-- The name and the value of a header. -/
def header? (line : String) : Option (String × String) :=
  match cutAt ':' line with
  | (name, some value) => some (name.map Char.toLower, value.trimAscii.toString)
  | (_, none) => none

/-- The head that lines make. Lines that are no headers are passed over. -/
def ofLines? : List String → Option Head
  | [] => none
  | first :: rest =>
    match (split ' ' first.trimAscii.toString).filter (· ≠ "") with
    | method :: target :: _ => some ⟨method, target, rest.filterMap header?⟩
    | _ => none

/-- How long the body is said to be. -/
def bodyLength (h : Head) : Nat :=
  ((h.headers.lookup "content-length").bind String.toNat?).getD 0

/-- The request with a body. -/
def request (h : Head) (body : Bytes) : Request :=
  ⟨.ofName h.method, h.target, h.headers.lookup "content-type", body⟩

end Head

/-- A response as it is sent. -/
def Response.wire (r : Response) : Bytes :=
  let header (name : String) (value : Option String) : List String :=
    match value with
    | some v => [name ++ ": " ++ v]
    | none => []
  let lines := ["HTTP/1.1 " ++ Numeral.text r.status ++ " " ++ reason r.status] ++
    header "content-type" r.contentType ++ header "allow" r.allow ++
    header "content-length" (some (Numeral.text r.body.length)) ++ ["", ""]
  utf8 ("\r\n".intercalate lines) ++ r.body

end ControlPlane.Http
