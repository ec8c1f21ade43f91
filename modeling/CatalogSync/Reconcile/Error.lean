import CatalogSync.Store.Error
import CatalogSync.Validation

/-! Why a whole run was given up. -/

namespace CatalogSync

inductive ReconcileError
  /-- The input is malformed; the store was not called. -/
  | invalid (fault : Fault)
  /-- The guard could not learn what is related; nothing was deleted. -/
  | relatedLookup (error : StoreError)
  deriving DecidableEq, Repr

def ReconcileError.message : ReconcileError → String
  | invalid fault => "invalid input: " ++ fault.message
  | relatedLookup error => "related entity lookup failed: " ++ error.message

end CatalogSync
