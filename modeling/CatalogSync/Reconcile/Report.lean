import CatalogSync.Provenance
import CatalogSync.Entity.Basic

/-! What a run has done. -/

namespace CatalogSync

structure Report where
  provenance : Provenance
  created : Nat := 0
  modified : Nat := 0
  /-- How many entities disappeared. -/
  candidates : Nat := 0
  /-- Keys of the stored versions, in the order of the writes. -/
  upserted : List EntityRef := []
  failedUpserts : List EntityRef := []
  deleted : List EntityRef := []
  failedDeletes : List EntityRef := []
  /-- Candidates that the guard spared. -/
  preserved : List EntityRef := []
  deriving DecidableEq, Repr, Inhabited

/-- Did every call succeed? -/
def Report.isClean (r : Report) : Bool := r.failedUpserts.isEmpty && r.failedDeletes.isEmpty

end CatalogSync
