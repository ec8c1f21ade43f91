import CatalogSync.Changes
import CatalogSync.Guard
import CatalogSync.Order.Events
import CatalogSync.Reconcile.Report
import CatalogSync.Store.Basic

/-! Runs: what should be stored is written, what should not is deleted.

A run calls its store in three phases. It writes the entities to keep, in one batch or one by one; then, if
something disappeared, it asks what the written entities relate to; then it deletes what the guard lets go,
in one batch or one by one. A call that fails is reported and takes nothing else with it, except that
nothing is deleted when the question fails. -/

namespace CatalogSync.Reconcile

variable {m : Type → Type} [Monad m] [Reporting m]

/-! ### Writing -/

structure Written where
  /-- The versions that the store gave back. -/
  versions : List Entity := []
  failed : List EntityRef := []
  deriving Inhabited

/-- What became of the entities; without a result a write has failed, and further results do not count. -/
def Written.ofResults : List Entity → List (Except StoreError Entity) → Written
  | [], _ => {}
  | e :: es, [] =>
    let rest := ofResults es []
    { rest with failed := e.key :: rest.failed }
  | e :: es, r :: rs =>
    let rest := ofResults es rs
    match r with
    | .ok version => { rest with versions := version :: rest.versions }
    | .error _ => { rest with failed := e.key :: rest.failed }

def upsertEvents (e : Entity) : Option (Except StoreError Entity) → List Event
  | some (.ok _) => []
  | some (.error err) => [.upsertFailed e.key err]
  | none => [.upsertUnanswered e.key]

def batchEvents : List Entity → List (Except StoreError Entity) → List Event
  | [], _ => []
  | e :: es, rs => upsertEvents e rs.head? ++ batchEvents es rs.tail

def upsertEach (store : Store m) (o : CallOptions) (p : Provenance) :
    List Entity → m (List (Except StoreError Entity))
  | [] => pure []
  | e :: es => do
    let r ← store.upsertOne e o p
    reportAll (upsertEvents e (some r))
    let rs ← upsertEach store o p es
    pure (r :: rs)

def upsertAll (store : Store m) (policy : Policy) (es : List Entity) (p : Provenance) : m Written := do
  if es.isEmpty then return {}
  report (.upserting es.length)
  if policy.autoCreateRelated then
    let rs ← store.upsertBatch es policy.callOptions p
    reportAll (batchEvents es rs)
    return .ofResults es rs
  else
    report (.orderingForCreation (es.countP (·.usesSearchIdentifier)))
    reportAll (Order.events .creation es)
    let ordered := order .creation es
    let rs ← upsertEach store policy.callOptions p ordered
    return .ofResults ordered rs

/-! ### Deleting -/

structure Removed where
  deleted : List EntityRef := []
  failed : List EntityRef := []
  deriving Inhabited

def deleteEach (store : Store m) (o : CallOptions) (p : Provenance) : List EntityRef → m Removed
  | [] => pure {}
  | r :: rs => do
    match ← store.deleteOne r o p with
    | .ok _ =>
      let rest ← deleteEach store o p rs
      pure { rest with deleted := r :: rest.deleted }
    | .error err =>
      report (.deleteFailed r err)
      let rest ← deleteEach store o p rs
      pure { rest with failed := r :: rest.failed }

variable {α : Type} [Linked α]

def deleteAll (store : Store m) (policy : Policy) (xs : List α) (p : Provenance) : m Removed := do
  if xs.isEmpty then return {}
  report (.deleting xs.length)
  if policy.cascadeDeletes then
    let rs := Keyed.keys xs
    match ← store.deleteBatch rs policy.callOptions p with
    | .ok _ => return { deleted := rs }
    | .error err =>
      report (.batchDeleteFailed rs.length err)
      return { failed := rs }
  else
    reportAll (Order.events .deletion xs)
    deleteEach store policy.callOptions p (Keyed.keys (order .deletion xs))

/-- Deletes those candidates that the guard lets go; also gives the others. -/
def deleteGuarded (store : Store m) (policy : Policy) (candidates : List α) (kept : List EntityRef)
    (p : Provenance) : m (Except StoreError (Removed × List EntityRef)) := do
  if candidates.isEmpty then return .ok ({}, [])
  match ← store.related kept with
  | .error err => return .error err
  | .ok related =>
    let guard : Guard := ⟨kept, related, policy.autoCreateRelated⟩
    reportAll (guard.events candidates)
    let removed ← deleteAll store policy (guard.deletable candidates) p
    return .ok (removed, Keyed.keys (guard.preserved candidates))

/-! ### Whole runs -/

def summary (r : Report) : Event :=
  .finished r.upserted.length r.failedUpserts.length r.deleted.length r.failedDeletes.length r.preserved.length

def fault? {α : Type} [Keyed α] (d : Diff α) : Option Fault :=
  (CatalogSync.fault? d.before).or (CatalogSync.fault? d.after)

/-- Writes what should be stored after the change and deletes what was stored before it only. -/
def apply (store : Store m) (policy : Policy) (d : Diff Entity) (p : Provenance) :
    m (Except ReconcileError Report) := do
  if let some fault := fault? d then return .error (.invalid fault)
  let changes := d.changes
  report (.changesFound changes.created.length changes.deleted.length changes.modified.length)
  let written ← upsertAll store policy changes.kept p
  let upserted := Keyed.keys written.versions
  match ← deleteGuarded store policy changes.deleted upserted p with
  | .error err => return .error (.relatedLookup err)
  | .ok (removed, preserved) =>
    let result : Report := {
      provenance := p
      created := changes.created.length
      modified := changes.modified.length
      candidates := changes.deleted.length
      upserted
      failedUpserts := written.failed
      deleted := removed.deleted
      failedDeletes := removed.failed
      preserved }
    report (summary result)
    return .ok result

/-- Deletes what was stored before the change only, and writes nothing. -/
def delete (store : Store m) (policy : Policy) (d : Diff EntityRef) (p : Provenance) :
    m (Except ReconcileError Report) := do
  if let some fault := fault? d then return .error (.invalid fault)
  let changes := d.changes
  let counted : Report := {
    provenance := p
    created := changes.created.length
    modified := changes.modified.length
    candidates := changes.deleted.length }
  if changes.deleted.isEmpty then
    report .nothingToDelete
    return .ok counted
  report (.candidatesFound changes.deleted.length changes.kept.length)
  match ← deleteGuarded store policy changes.deleted changes.kept p with
  | .error err => return .error (.relatedLookup err)
  | .ok (removed, preserved) =>
    let result := { counted with deleted := removed.deleted, failedDeletes := removed.failed, preserved }
    report (summary result)
    return .ok result

/-! ### Parts of runs -/

/-- Writes entities; gives the versions stored. -/
def upsert (store : Store m) (policy : Policy) (es : List Entity) (p : Provenance) : m (List Entity) :=
  (·.versions) <$> upsertAll store policy es p

/-- Deletes items; gives those that were. -/
def remove (store : Store m) (policy : Policy) (xs : List α) (p : Provenance) : m (List EntityRef) :=
  (·.deleted) <$> deleteAll store policy xs p

end CatalogSync.Reconcile
