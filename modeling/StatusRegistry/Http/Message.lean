import StatusRegistry.Address
import StatusRegistry.Failure

/-!
# Requests and responses

A request carries its target, header values and body as octets, since nothing has been checked yet.
A response carries only headers that mean something to a client of the registry.
-/

namespace StatusRegistry.Http

/-- The methods that the registry tells apart. -/
inductive Method where
  | get
  | head
  | post
  | put
  | delete
  | other
  deriving DecidableEq, Repr

/-- The method with a name; letter case matters. -/
def Method.ofName : String → Method
  | "GET" => .get
  | "HEAD" => .head
  | "POST" => .post
  | "PUT" => .put
  | "DELETE" => .delete
  | _ => .other

/-- A request. The peer is where its connection comes from, if that is known. -/
structure Request where
  method : Method
  target : List UInt8
  headers : List (String × List UInt8)
  body : List UInt8
  peer : Option Endpoint

/-- The values of a header, in order; letter case of names does not matter. -/
def Request.headerValues (r : Request) (name : String) : List (List UInt8) :=
  r.headers.filterMap fun (key, value) =>
    if key.toList.map Char.toLower = name.toList then some value else none

/-- Whether an octet may stand in a header that is read as text. -/
def isTextOctet (b : UInt8) : Bool := b = 0x09 || (0x20 ≤ b && b ≤ 0x7E)

/-- A header value as text, if every octet is visible ASCII, a space or a tab. -/
def headerText? (value : List UInt8) : Option String :=
  if value.all isTextOctet then some (String.ofList (value.map fun b => Char.ofNat b.toNat))
  else none

/-- The text of the first header with a name. -/
def Request.headerText? (r : Request) (name : String) : Option String :=
  (r.headerValues name).head?.bind Http.headerText?

/-- What a response carries. -/
inductive Body where
  | empty
  | text (content : String)
  | json (content : Json)

/-- A response. -/
structure Response where
  status : Nat
  headers : List (String × String)
  body : Body

namespace Response

/-- A response without content. -/
def bare (status : Nat) : Response := ⟨status, [], .empty⟩

/-- A response that carries a JSON value. -/
def json (status : Nat) (content : Json) : Response :=
  ⟨status, [("content-type", "application/json")], .json content⟩

/-- The response to a request that failed. -/
def ofFailure (f : Failure) : Response :=
  let challenge := f.challenge.map fun scheme => ("www-authenticate", scheme)
  ⟨f.kind.httpStatus, ("content-type", "application/json") :: challenge.toList,
    .json (.obj [("error", f.toJson)])⟩

/-- The response to an action. -/
def ofExcept (respond : α → Response) : Except Failure α → Response
  | .ok a => respond a
  | .error f => ofFailure f

/-- The response without its content, as it answers a request for the headers alone. -/
def withoutBody (r : Response) : Response := { r with body := .empty }

end Response

end StatusRegistry.Http
