import ControlPlane.Api.Decision
import ControlPlane.Api.Reply

/-!
# The service

The API on top of a store. A request is understood, decided on and carried out; the reply tells
which of these went wrong, if one did.
-/

namespace ControlPlane.Api

/-- What the service works on: the store, and how many new ids were given out. -/
structure Service where
  backing : Backing
  issued : Nat

/-- What does not change while a service runs: what a status set by hand counts for, and the ids
that are given out one after the other. -/
structure Settings where
  policy : StatusPolicy
  ids : Nat → String

namespace Service

/-- Carries a decision out. An id is given out only with a change that is made. -/
def carryOut (s : Service) : Decision → Reply × Service
  | .tell body => (.done body, s)
  | .make c body named =>
    match s.backing.commit c with
    | (none, b) => (.done body, ⟨b, if named then s.issued + 1 else s.issued⟩)
    | (some e, b) => (.failed (.store e), { s with backing := b })

/-- Obeys a command. -/
def obey (settings : Settings) (now : Instant) (c : Command) (s : Service) : Reply × Service :=
  match c.decide settings.policy now (settings.ids s.issued) s.backing.store with
  | .ok d => s.carryOut d
  | .error e => (.failed e, s)

/-- Deals with a request. -/
def handle (settings : Settings) (now : Instant) (r : Http.Request) (s : Service) :
    Reply × Service :=
  match Command.ofRequest r with
  | .ok c => s.obey settings now c
  | .error why => (.refused why, s)

/-- Deals with a request and writes the response. Who asks for a head alone gets no body. -/
def respond (settings : Settings) (now : Instant) (requestId : String) (r : Http.Request)
    (s : Service) : Option Http.Response × Service :=
  let (reply, s) := s.handle settings now r
  let response := reply.response? requestId
  (if r.method = .head then response.map (·.withoutBody) else response, s)

end Service

end ControlPlane.Api
