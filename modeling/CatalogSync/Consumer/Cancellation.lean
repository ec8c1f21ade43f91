/-! Cancellation: who holds a token can ask the loops that watch it to stop, and cannot take this back. -/

namespace CatalogSync

/-- A copy of a token is the same token. -/
structure CancelToken where
  index : Nat
  deriving DecidableEq, Repr, Inhabited

/-- Which of the tokens handed out so far are cancelled. -/
structure Cancellations where
  flags : List Bool := []
  deriving DecidableEq, Repr, Inhabited

namespace Cancellations

/-- A new token. -/
def issue (c : Cancellations) : CancelToken × Cancellations := (⟨c.flags.length⟩, ⟨c.flags ++ [false]⟩)

def cancel (c : Cancellations) (t : CancelToken) : Cancellations := ⟨c.flags.set t.index true⟩

def isCancelled (c : Cancellations) (t : CancelToken) : Bool := c.flags.getD t.index false

end Cancellations
end CatalogSync
