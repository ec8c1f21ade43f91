import CatalogSync.Json.Codec

/-! HTTP requests and responses, and who sends them. -/

namespace CatalogSync.Http

inductive Method
  | get
  | post
  | delete
  deriving DecidableEq, Repr

/-- As it stands in a request line. -/
def Method.verb : Method → String
  | get => "GET"
  | post => "POST"
  | delete => "DELETE"

def Method.name : Method → String
  | get => "Get"
  | post => "Post"
  | delete => "Delete"

structure Request where
  method : Method
  url : String
  headers : List (String × String)
  body : Option String
  deriving DecidableEq, Repr

structure Response where
  status : Nat
  body : List UInt8
  deriving DecidableEq, Repr

namespace Response

def json (status : Nat) (body : Json) : Response := ⟨status, Text.bytes body.compact⟩

def isSuccess (r : Response) : Bool := 200 ≤ r.status && r.status < 300

end Response

/-- Sends a request; the error says why there was no response. -/
structure Client (m : Type → Type) where
  send : Request → m (Except String Response)

end CatalogSync.Http
