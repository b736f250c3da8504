import ControlPlane.Http.Escape

/-!
# Requests and responses

What is asked over HTTP and what is answered, as far as the control plane looks at it.
-/

namespace ControlPlane.Http

/-- What a request wants to do. -/
inductive Method where
  | get
  | head
  | post
  | put
  | patch
  | delete
  | other (name : String)
  deriving DecidableEq, Repr

/-- The method with a name. -/
def Method.ofName : String → Method
  | "GET" => .get
  | "HEAD" => .head
  | "POST" => .post
  | "PUT" => .put
  | "PATCH" => .patch
  | "DELETE" => .delete
  | name => .other name

/-- The name of a method. -/
def Method.name : Method → String
  | .get => "GET"
  | .head => "HEAD"
  | .post => "POST"
  | .put => "PUT"
  | .patch => "PATCH"
  | .delete => "DELETE"
  | .other name => name

/-- A request. `target` is the path with the query; `contentType` is what the sender says that the
body is. -/
structure Request where
  method : Method
  target : String
  contentType : Option String
  body : Bytes

namespace Request

/-- The target without what follows a number sign. -/
def cleanTarget (r : Request) : String :=
  (cutAt '#' r.target).1

/-- The path of a request. -/
def path (r : Request) : String :=
  (cutAt '?' r.cleanTarget).1

/-- The query of a request, empty if there is none. -/
def query (r : Request) : String :=
  (cutAt '?' r.cleanTarget).2.getD ""

end Request

/-- A response. `allow` lists the methods that would have been possible. -/
structure Response where
  status : Nat
  contentType : Option String
  allow : Option String
  body : Bytes

/-- A response to a request that wants no body. -/
def Response.withoutBody (r : Response) : Response :=
  { r with body := [] }

end ControlPlane.Http
