import CatalogSync.Order.Basic
import CatalogSync.Event

/-! What an ordering tells of the cycles that it breaks. -/

namespace CatalogSync.Order

variable {α : Type} [Linked α]

def event? (items : List α) (s : Sequence.Step) : Option Event := do
  let x ← items[s.node]?
  match s.cause with
  | .ready => none
  | .cycleBroken => some (.cycleBroken (Keyed.key x))
  | .brokenAgain => some (.cycleBrokenAgain (Keyed.key x))

def events (d : Direction) (items : List α) : List Event := (steps d items).filterMap (event? items)

end CatalogSync.Order
