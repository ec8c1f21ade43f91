import CatalogSync.Http.Wire
import CatalogSync.Text.Utf8

/-! A client and a server with prepared answers, which keep the requests they get. -/

namespace CatalogSync.Http

structure Canned where
  /-- Given one by one; an error stands for no response. -/
  replies : List (Except String Response) := []
  /-- First one first. -/
  sent : List Request := []
  deriving Inhabited

def Canned.send (c : Canned) (r : Request) : Except String Response × Canned :=
  match c.replies with
  | [] => (.error "no response set", { c with sent := c.sent ++ [r] })
  | reply :: replies => (reply, { replies, sent := c.sent ++ [r] })

def Client.canned {m : Type → Type} [MonadStateOf Canned m] : Client m :=
  ⟨fun r => modifyGetThe Canned fun c => c.send r⟩

/-! ### Behind a connection -/

structure CannedServer where
  url : String
  /-- Given one by one; none stands for a connection that is closed. -/
  replies : List (Option Response) := []
  /-- First one first. -/
  received : List WireRequest := []
  deriving Inhabited

namespace CannedServer

def isAt (s : CannedServer) (a : Address) : Bool :=
  match Address.ofUrl? s.url with
  | none => false
  | some own => own.secure == a.secure && own.host == a.host && own.port == a.port

/-- Requests to other servers are not answered. -/
def answer (s : CannedServer) (r : WireRequest) : Option Response × CannedServer :=
  if s.isAt r.address then
    let received := s.received ++ [r]
    match s.replies with
    | [] => (some ⟨500, Text.bytes "no response set"⟩, { s with received })
    | reply :: replies => (reply, { s with replies, received })
  else (none, s)

end CannedServer

def Wire.canned {m : Type → Type} [MonadStateOf CannedServer m] : Wire m :=
  ⟨fun r => modifyGetThe CannedServer fun s => s.answer r⟩

end CatalogSync.Http
