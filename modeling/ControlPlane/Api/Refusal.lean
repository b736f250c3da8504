import ControlPlane.Http.MediaType
import ControlPlane.Http.Message
import ControlPlane.Json.Decoder

/-!
# Refused requests

Why a request is not understood. What is understood and cannot be done is an error of a registry
instead.
-/

namespace ControlPlane.Api

open Http (Method)

/-- Why a request is not understood. -/
inductive Refusal where
  /-- The path leads nowhere. -/
  | unknownPath
  /-- The path does not know the method, but the given ones. -/
  | wrongMethod (known : List Method)
  /-- The id in the path is no text. -/
  | badId
  /-- A parameter of the query is given twice. -/
  | repeatedParameter (name : String)
  /-- The body is not said to be JSON. -/
  | notJson
  /-- The body is too long. -/
  | tooLong
  /-- The body does not hold what it should. -/
  | badBody (fault : Fault)
  deriving DecidableEq, Repr

namespace Refusal

/-- The status that tells a refusal. -/
def status : Refusal → Nat
  | .unknownPath => 404
  | .wrongMethod _ => 405
  | .badId | .repeatedParameter _ | .badBody .malformed => 400
  | .notJson => 415
  | .tooLong => 413
  | .badBody (.shape _ _) => 422

/-- The wording of a refusal, if it has one. -/
def message? : Refusal → Option String
  | .unknownPath | .wrongMethod _ => none
  | .badId => some "Invalid URL: Invalid UTF-8 in `id`"
  | .repeatedParameter name =>
    some ("Failed to deserialize query string: " ++ (Cause.duplicate name).message)
  | .notJson => some "Expected request with `Content-Type: application/json`"
  | .tooLong => some "Failed to buffer the request body: length limit exceeded"
  | .badBody .malformed =>
    some ("Failed to parse the request body as JSON: " ++ Fault.malformed.message)
  | .badBody (.shape path cause) =>
    let place := if path.isEmpty then "" else Step.render path ++ ": "
    some ("Failed to deserialize the JSON body into the target type: " ++ place ++ cause.message)

/-- The methods that would have been possible. -/
def allow? : Refusal → Option String
  | .wrongMethod known => some (",".intercalate (known.map Method.name))
  | _ => none

end Refusal

/-! ## Parts of a request -/

/-- How many bytes a body may have. -/
def bodyLimit : Nat := 2097152

/-- Reads the body of a request. What follows the document in it is not looked at. -/
def readBody {α : Type} (c : Codec α) (r : Http.Request) : Except Refusal α :=
  match r.contentType.bind Http.MediaType.parse? with
  | some t =>
    if !t.isJson then .error .notJson
    else if bodyLimit < r.body.length then .error .tooLong
    else match c.readFront (Text.ofBytes r.body) with
      | .ok a => .ok a
      | .error f => .error (.badBody f)
  | none => .error .notJson

/-- Reads an id in a path. -/
def readId (escaped : String) : Except Refusal String :=
  match Http.unescapeText? escaped with
  | some id => .ok id
  | none => .error .badId

/-- Reads a parameter of the query, which may be given once. -/
def readParameter (name : String) (r : Http.Request) : Except Refusal (Option String) :=
  match (Http.formPairs r.query).filter (·.1 == name) with
  | [] => .ok none
  | [(_, value)] => .ok (some value)
  | _ => .error (.repeatedParameter name)

end ControlPlane.Api
