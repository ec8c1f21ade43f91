import CatalogSync.Store.Basic

/-! A store with prepared replies, one for each call. Once they are used up every call succeeds. -/

namespace CatalogSync

inductive Script.Result
  /-- The entity is stored as it was sent. -/
  | echo
  | stored (version : Entity)
  | failed (error : StoreError)
  deriving Inhabited

/-- What a call makes of its reply depends on the kind of call. -/
structure Script.Reply where
  result : Script.Result := .echo
  /-- Results of a batch; without them all of it succeeds. -/
  results : Option (List Script.Result) := none
  related : List EntityRef := []
  deriving Inhabited

structure Script where
  replies : List Script.Reply := []
  deriving Inhabited

namespace Script

def next (s : Script) : Reply × Script :=
  match s.replies with
  | [] => ({}, s)
  | r :: rs => (r, ⟨rs⟩)

def Result.upsert (sent : Option Entity) : Result → Except StoreError Entity
  | .stored version => .ok version
  | .failed err => .error err
  | .echo =>
    match sent with
    | some e => .ok e
    | none => .error (.codec "nothing to echo")

def Result.delete : Result → Except StoreError Unit
  | .failed err => .error err
  | _ => .ok ()

/-- One result for each prepared one, whatever the number of entities sent. -/
def Reply.batch (es : List Entity) (r : Reply) : List (Except StoreError Entity) :=
  match r.results with
  | none => es.map .ok
  | some results => results.zipIdx.map fun x => x.1.upsert es[x.2]?

def Reply.lookup (r : Reply) : Except StoreError (List EntityRef) :=
  match r.result with
  | .failed err => .error err
  | _ => .ok r.related

end Script

def Store.scripted {m : Type → Type} [Monad m] [MonadStateOf Script m] : Store m :=
  let take : m Script.Reply := modifyGetThe Script Script.next
  { upsertOne := fun e _ _ => do return (← take).result.upsert (some e)
    upsertBatch := fun es _ _ => do return (← take).batch es
    deleteOne := fun _ _ _ => do return (← take).result.delete
    deleteBatch := fun _ _ _ => do return (← take).result.delete
    related := fun _ => do return (← take).lookup }

end CatalogSync
