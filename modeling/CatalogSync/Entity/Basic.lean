import CatalogSync.Json.Basic
import CatalogSync.Collections.SortedMap

/-! Entities of the catalog and references to them.

An identifier is unique within a blueprint, so the pair of both is the key of an entity. A relation names
identifiers only: its targets are all entities with that identifier, under any blueprint. -/

namespace CatalogSync

structure EntityRef where
  identifier : String
  blueprint : String
  deriving DecidableEq, Repr, Inhabited

inductive RelationTarget
  /-- The relation is set but points nowhere. -/
  | empty
  | one (identifier : String)
  | many (identifiers : List String)
  deriving DecidableEq, Repr, Inhabited

structure Entity where
  identifier : String
  blueprint : String
  title : Option String := none
  team : List String := []
  icon : Option String := none
  properties : SortedMap String Json := ∅
  relations : SortedMap String RelationTarget := ∅
  /-- The store finds the identifier by a query. -/
  usesSearchIdentifier : Bool := false
  deriving BEq, Inhabited

namespace EntityRef

/-- By identifier, then by blueprint. -/
instance : Ord EntityRef := ⟨compareLex (compareOn identifier) (compareOn blueprint)⟩

instance : Std.TransOrd EntityRef :=
  inferInstanceAs (Std.TransCmp (compareLex (compareOn identifier) (compareOn blueprint)))

instance : Std.LawfulEqOrd EntityRef where
  eq_of_compare {a b} h := by
    obtain ⟨h₁, h₂⟩ := compareLex_eq_eq.mp h
    cases a
    cases b
    simp only [compareOn] at h₁ h₂
    rw [Std.LawfulEqOrd.eq_of_compare h₁, Std.LawfulEqOrd.eq_of_compare h₂]

def text (r : EntityRef) : String := "(" ++ r.identifier ++ ", " ++ r.blueprint ++ ")"

end EntityRef

namespace RelationTarget

def identifiers : RelationTarget → List String
  | empty => []
  | one id => [id]
  | many ids => ids

end RelationTarget

namespace Entity

def key (e : Entity) : EntityRef := ⟨e.identifier, e.blueprint⟩

/-- The targets of all relations, in the order of the relations' names. -/
def targets (e : Entity) : List String := e.relations.values.flatMap (·.identifiers)

def withProperty (e : Entity) (name : String) (value : Json) : Entity :=
  { e with properties := e.properties.insert name value }

def withRelation (e : Entity) (name : String) (target : RelationTarget) : Entity :=
  { e with relations := e.relations.insert name target }

end Entity

/-! ### What entities and references have in common -/

class Keyed (α : Type) where
  key : α → EntityRef

/-- Items that may depend on others: each on all items whose identifier is among its targets. -/
class Linked (α : Type) extends Keyed α where
  targets : α → List String
  usesSearchIdentifier : α → Bool

instance : Linked Entity where
  key := Entity.key
  targets := Entity.targets
  usesSearchIdentifier := Entity.usesSearchIdentifier

/-- Nothing but the key is known of a reference. -/
instance : Linked EntityRef where
  key := id
  targets _ := []
  usesSearchIdentifier _ := false

namespace Keyed

variable {α : Type} [Keyed α]

def identifier (x : α) : String := (key x).identifier

def blueprint (x : α) : String := (key x).blueprint

def keys (xs : List α) : List EntityRef := xs.map key

end Keyed
end CatalogSync
