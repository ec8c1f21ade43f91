import CatalogSync.Diff

/-! A diff split by key into what was created, modified and deleted. -/

namespace CatalogSync

structure Changes (α : Type) where
  /-- After the change only. -/
  created : List α
  /-- Before and after it, as they are after it. -/
  modified : List α
  /-- Before the change only. -/
  deleted : List α
  deriving BEq, Inhabited

namespace Changes

variable {α : Type}

def isEmpty (c : Changes α) : Bool := c.created.isEmpty && c.modified.isEmpty && c.deleted.isEmpty

/-- What should be stored after the change, what was created first. -/
def kept (c : Changes α) : List α := c.created ++ c.modified

end Changes

/-- Each part keeps the order of the collection it comes from. -/
def Diff.changes {α : Type} [Keyed α] (d : Diff α) : Changes α where
  created := d.after.filter fun x => Keyed.key x ∉ Keyed.keys d.before
  modified := d.after.filter fun x => Keyed.key x ∈ Keyed.keys d.before
  deleted := d.before.filter fun x => Keyed.key x ∉ Keyed.keys d.after

end CatalogSync
