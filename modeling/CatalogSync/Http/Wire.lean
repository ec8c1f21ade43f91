import CatalogSync.Http.Address
import CatalogSync.Http.Message

/-! Requests as they go over a connection, and a client that sends them with a token. -/

namespace CatalogSync.Http

structure WireRequest where
  verb : String
  address : Address
  /-- Names in lower case, values without blanks around them. -/
  headers : List (String × String)
  body : String
  deriving DecidableEq, Repr

/-- Connections to anywhere. -/
structure Wire (m : Type → Type) where
  /-- Sends a request and waits for the answer; none if there is none. -/
  exchange : WireRequest → m (Option Response)

namespace WireRequest

/-- May the character stand in the value of a header? -/
def isValueChar (c : Char) : Bool := c = '\t' || (0x20 ≤ c.toNat && c.toNat ≠ 0x7F)

def trimValue (value : String) : String :=
  let blank := fun c => c = ' ' || c = '\t'
  String.ofList (((value.toList.dropWhile blank).reverse.dropWhile blank).reverse)

def authorization (token : Option String) : List (String × String) :=
  token.toList.map fun t => ("Authorization", "Bearer " ++ t)

/-- None if the request cannot be sent to its URL or with its headers. -/
def ofRequest? (token : Option String) (r : Request) : Option WireRequest := do
  let address ← Address.ofUrl? r.url
  let headers := r.headers ++ authorization token
  if headers.all fun h => h.2.toList.all isValueChar then
    some {
      verb := r.method.verb
      address
      headers := headers.map fun h => (h.1.map Char.toLower, trimValue h.2)
      body := r.body.getD "" }
  else none

end WireRequest

/-- The status of a change of protocol. -/
def protocolChange : Nat := 101

/-- Does the response answer the request? A status has three digits, and those below 200 announce another response,
except for a change of protocol. -/
def isFinal (status : Nat) : Bool := (200 ≤ status && status < 1000) || status = protocolChange

/-- The statuses of responses without a body. -/
def bodiless : List Nat := [protocolChange, 204, 304]

/-- What is got of a response that is sent; none if nothing that answers the request. -/
def Response.received? (r : Response) : Option Response :=
  if !isFinal r.status then none
  else some (if bodiless.contains r.status then { r with body := [] } else r)

def Client.overWire {m : Type → Type} [Monad m] (wire : Wire m) (token : Option String) : Client m :=
  ⟨fun r => do
    match WireRequest.ofRequest? token r with
    | none => return .error "the request cannot be sent"
    | some w =>
      match (← wire.exchange w).bind Response.received? with
      | none => return .error "there is no response"
      | some response => return .ok response⟩

end CatalogSync.Http
