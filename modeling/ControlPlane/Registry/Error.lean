import ControlPlane.Store.Error

/-!
# Errors of a registry

Why a registry did not do what was asked. Errors of the caller are told apart from those of the
store and its records (`RegistryError.isInvalidArgument`).
-/

namespace ControlPlane

/-- Why a registry did not do what was asked. `kind` is what the registry keeps. -/
inductive RegistryError where
  | emptyId (kind : String)
  /-- The record carries the id of another one. -/
  | idMismatch (kind id recordId : String)
  | notFound (kind id : String)
  /-- The value stored under a key is no record. -/
  | decode (key : String) (fault : Fault)
  | store (e : StoreError)
  /-- No later time than the one stored is left to stamp a record with. -/
  | noLaterTime
  deriving DecidableEq, Repr

namespace RegistryError

/-- The wording of an error. -/
def message : RegistryError → String
  | .emptyId kind => s!"{kind} id cannot be empty"
  | .idMismatch kind id recordId =>
    let recordId := Text.quoted recordId
    let id := Text.quoted id
    s!"{kind} info id {recordId} does not match {kind} id {id}"
  | .notFound kind id =>
    let id := Text.quoted id
    s!"{kind} {id} not found"
  | .decode key fault => "decode " ++ Text.quoted key ++ ": " ++ fault.message
  | .store e => e.message
  | .noLaterTime => "`DateTime + TimeDelta` overflowed"

/-- Whether the caller asked for something that cannot be. -/
def isInvalidArgument : RegistryError → Bool
  | .emptyId _ | .idMismatch _ _ _ | .store .emptyKey => true
  | _ => false

end RegistryError

end ControlPlane
