import CatalogSync.Entity.Basic
import CatalogSync.Order.Sequence

/-! The order in which items are written or deleted.

Items are written after what they depend on and deleted before it. When they are written, those whose
identifier the store finds by a query come first, in the order given, and nothing waits for them. Otherwise
the order given decides between items that could come next. -/

namespace CatalogSync

inductive Direction
  | creation
  | deletion
  deriving DecidableEq, Repr

namespace Order

variable {α : Type} [Linked α]

/-- Does the item wait for others, and others for it? -/
def takesPart (d : Direction) (x : α) : Bool := d == .deletion || !Linked.usesSearchIdentifier x

/-- The positions of the items that take part. -/
def nodes (d : Direction) (items : List α) : List Nat :=
  (items.zipIdx.filter fun x => takesPart d x.1).map (·.2)

/-- The positions of the others. -/
def exempt (d : Direction) (items : List α) : List Nat :=
  (items.zipIdx.filter fun x => !takesPart d x.1).map (·.2)

/-- The positions of the items that take part, by identifier; the blueprint does not count. -/
def byIdentifier (d : Direction) (items : List α) : SortedMap String (List Nat) :=
  (items.zipIdx.filter fun x => takesPart d x.1).foldl
    (fun m x => m.insert (Keyed.identifier x.1) ((m.get? (Keyed.identifier x.1)).getD [] ++ [x.2])) ∅

/-- Each position once, in ascending order. -/
def ascending (is : List Nat) : List Nat := is.foldl (fun l i => Sequence.Progress.insertNode i l) []

/-- For each position those of the items that the item there depends on. -/
def dependencies (d : Direction) (items : List α) : Adjacency :=
  let named := byIdentifier d items
  (items.zipIdx.map fun x =>
    if takesPart d x.1 then
      ascending (((Linked.targets x.1).flatMap fun t => (named.get? t).getD []).filter (· != x.2))
    else []).toArray

/-- For each position the positions that come before it. -/
def prerequisites (d : Direction) (items : List α) : Adjacency :=
  match d with
  | .creation => dependencies d items
  | .deletion => (dependencies d items).reverse

/-- The steps by which the items that take part follow one another. -/
def steps (d : Direction) (items : List α) : List Sequence.Step :=
  Sequence.run (prerequisites d items) (nodes d items)

/-- The positions of the items, in order. -/
def indices (d : Direction) (items : List α) : List Nat :=
  exempt d items ++ (steps d items).map (·.node)

end Order

/-- The items, in order. -/
def order {α : Type} [Linked α] (d : Direction) (items : List α) : List α :=
  (Order.indices d items).filterMap (items[·]?)

end CatalogSync
