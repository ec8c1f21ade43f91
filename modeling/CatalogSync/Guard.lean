import CatalogSync.Event

/-! Which entities may be deleted.

Never one that was kept; and one that a kept entity relates to only if the store does not create missing
related entities by itself, as it would come back at once. -/

namespace CatalogSync

inductive Verdict
  | delete
  | spareKept
  | spareRelated
  deriving DecidableEq, Repr

structure Guard where
  kept : List EntityRef
  /-- What the kept entities relate to. -/
  related : List EntityRef
  sparesRelated : Bool

namespace Guard

def verdict (g : Guard) (r : EntityRef) : Verdict :=
  if r ∈ g.kept then .spareKept
  else if r ∈ g.related ∧ g.sparesRelated then .spareRelated
  else .delete

variable {α : Type} [Keyed α]

def deletable (g : Guard) (candidates : List α) : List α :=
  candidates.filter fun x => g.verdict (Keyed.key x) = .delete

def preserved (g : Guard) (candidates : List α) : List α :=
  candidates.filter fun x => g.verdict (Keyed.key x) ≠ .delete

def event? (g : Guard) (r : EntityRef) : Option Event :=
  match g.verdict r with
  | .delete => none
  | .spareKept => some (.keptSpared r)
  | .spareRelated => some (.relatedSpared r)

/-- One for each preserved candidate. -/
def events (g : Guard) (candidates : List α) : List Event := (Keyed.keys candidates).filterMap g.event?

end Guard
end CatalogSync
