import CatalogSync.Policy
import CatalogSync.Provenance
import CatalogSync.Entity.Codec
import CatalogSync.Store.Error

/-! Stores of entities, and the calls made to them. -/

namespace CatalogSync

/-- A store, as what each call to it does. -/
structure Store (m : Type → Type) where
  /-- Creates or replaces an entity; gives the version that is stored. -/
  upsertOne : Entity → CallOptions → Provenance → m (Except StoreError Entity)
  /-- One result for each entity, in their order. -/
  upsertBatch : List Entity → CallOptions → Provenance → m (List (Except StoreError Entity))
  deleteOne : EntityRef → CallOptions → Provenance → m (Except StoreError Unit)
  deleteBatch : List EntityRef → CallOptions → Provenance → m (Except StoreError Unit)
  /-- What these entities, as they are stored, depend on. -/
  related : List EntityRef → m (Except StoreError (List EntityRef))

inductive Call
  | upsertOne (entity : Entity) (options : CallOptions) (provenance : Provenance)
  | upsertBatch (entities : List Entity) (options : CallOptions) (provenance : Provenance)
  | deleteOne (ref : EntityRef) (options : CallOptions) (provenance : Provenance)
  | deleteBatch (refs : List EntityRef) (options : CallOptions) (provenance : Provenance)
  | related (refs : List EntityRef)
  deriving BEq, Inhabited

namespace Call

/-- The keys that a call is about. -/
def keys : Call → List EntityRef
  | upsertOne e _ _ => [e.key]
  | upsertBatch es _ _ => Keyed.keys es
  | deleteOne r _ _ => [r]
  | deleteBatch rs _ _ => rs
  | related rs => rs

/-- What a write or delete carries along. -/
def terms? : Call → Option (CallOptions × Provenance)
  | upsertOne _ o p | upsertBatch _ o p | deleteOne _ o p | deleteBatch _ o p => some (o, p)
  | related _ => none

end Call

/-- The calls made to a store, first one first. -/
structure CallLog where
  calls : List Call := []
  deriving Inhabited

namespace Store

variable {m : Type → Type} [Monad m] [MonadStateOf CallLog m]

private def noting {α : Type} (call : Call) (act : m α) : m α := do
  modifyThe CallLog fun log => ⟨log.calls ++ [call]⟩
  act

/-- The same store, with each call noted before it is made. -/
def recorded (store : Store m) : Store m where
  upsertOne e o p := noting (.upsertOne e o p) (store.upsertOne e o p)
  upsertBatch es o p := noting (.upsertBatch es o p) (store.upsertBatch es o p)
  deleteOne r o p := noting (.deleteOne r o p) (store.deleteOne r o p)
  deleteBatch rs o p := noting (.deleteBatch rs o p) (store.deleteBatch rs o p)
  related rs := noting (.related rs) (store.related rs)

end Store
end CatalogSync
