import ControlPlane.Api.Refusal
import ControlPlane.Registry.Error

/-!
# Replies

What comes of a request, and how it is told: `Reply.response?` writes it as a response.
-/

namespace ControlPlane.Api

/-! ## Errors by kind -/

/-- The kinds of errors that callers can tell apart. -/
inductive ErrorCode where
  | invalidArgument
  | notFound
  | internal
  deriving DecidableEq, Repr

namespace ErrorCode

/-- The name of a kind of errors. -/
def name : ErrorCode → String
  | .invalidArgument => "invalid_argument"
  | .notFound => "not_found"
  | .internal => "internal"

/-- The status that tells a kind of errors. -/
def status : ErrorCode → Nat
  | .invalidArgument => 400
  | .notFound => 404
  | .internal => 500

/-- The kind of a registry's error. -/
def ofError (e : RegistryError) : ErrorCode :=
  if e.isInvalidArgument then .invalidArgument
  else match e with
    | .notFound _ _ => .notFound
    | _ => .internal

end ErrorCode

/-! ## Replies -/

/-- What comes of a request. -/
inductive Reply where
  /-- It is done. -/
  | done (body : Json)
  /-- It is not understood. -/
  | refused (why : Refusal)
  /-- It cannot be done. -/
  | failed (e : RegistryError)

/-- The body that tells an error. -/
def errorBody (e : RegistryError) (requestId : String) : Json :=
  .object [("error", .object
    [("code", .string (ErrorCode.ofError e).name), ("message", .string e.message),
      ("request_id", .string ("req_" ++ requestId))])]

namespace Reply

/-- The type of a body in JSON. -/
def jsonType : String := "application/json"

/-- The type of a body in plain text. -/
def textType : String := "text/plain; charset=utf-8"

/-- A response that tells a reply. Where no later time is left to stamp a record with, there is
none. -/
def response? (requestId : String) : Reply → Option Http.Response
  | .done body => some ⟨200, some jsonType, none, body.toBytes⟩
  | .refused why =>
    some ⟨why.status, why.message?.map fun _ => textType, why.allow?, utf8 (why.message?.getD "")⟩
  | .failed .noLaterTime => none
  | .failed e =>
    some ⟨(ErrorCode.ofError e).status, some jsonType, none, (errorBody e requestId).toBytes⟩

end Reply

end ControlPlane.Api
