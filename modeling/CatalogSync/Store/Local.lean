import CatalogSync.Store.Basic

/-! A store in memory.

It keeps each entity under its key. Chosen entities can be made to refuse every write and delete, and the
look-up of related entities can be made to fail. -/

namespace CatalogSync

structure LocalStore where
  entities : SortedMap EntityRef Entity := ∅
  failing : List EntityRef := []
  relatedAvailable : Bool := true
  deriving Inhabited

namespace LocalStore

/-! ### Contents -/

def get? (s : LocalStore) (r : EntityRef) : Option Entity := s.entities.get? r

def contains (s : LocalStore) (r : EntityRef) : Bool := s.entities.contains r

def refs (s : LocalStore) : List EntityRef := s.entities.keys

def stored (s : LocalStore) : List Entity := s.entities.values

def insert (s : LocalStore) (e : Entity) : LocalStore := { s with entities := s.entities.insert e.key e }

def ofEntities (es : List Entity) : LocalStore := es.foldl insert {}

def failOn (s : LocalStore) (r : EntityRef) : LocalStore := { s with failing := r :: s.failing }

def refuses (s : LocalStore) (r : EntityRef) : Bool := s.failing.contains r

def refusal (r : EntityRef) : StoreError := .rejected 422 ("entity " ++ r.text ++ " rejected")

/-! ### Writes -/

/-- The version of `e` that replaces what is stored: when merging, with the properties that only the stored
    version has. -/
def merged (s : LocalStore) (e : Entity) (merge : Bool) : Entity :=
  match s.get? e.key with
  | some old => if merge then { e with properties := e.properties.orElse old.properties } else e
  | none => e

def write (s : LocalStore) (e : Entity) (o : CallOptions) : Except StoreError Entity × LocalStore :=
  if s.refuses e.key then (.error (refusal e.key), s)
  else
    let version := s.merged e o.merge
    (.ok version, if o.validationOnly then s else s.insert version)

def writeAll (s : LocalStore) (o : CallOptions) : List Entity → List (Except StoreError Entity) × LocalStore
  | [] => ([], s)
  | e :: es =>
    let (r, s) := s.write e o
    let (rs, s) := writeAll s o es
    (r :: rs, s)

/-! ### Deletes -/

def remove (s : LocalStore) (r : EntityRef) : LocalStore := { s with entities := s.entities.erase r }

/-- Those that relate to the identifier of `r`. -/
def dependents (entities : SortedMap EntityRef Entity) (r : EntityRef) : List EntityRef :=
  (entities.values.filter fun e => e.targets.contains r.identifier).map Entity.key

theorem size_erase_lt {entities : SortedMap EntityRef Entity} {r : EntityRef} (h : entities.contains r) :
    (entities.erase r).size < entities.size := by
  obtain ⟨e, he⟩ := Option.isSome_iff_exists.mp h
  exact List.length_filter_lt_length_iff_exists.mpr
    ⟨(r, e), SortedMap.get?_eq_some_iff.mp he, by simp [Std.ReflCmp.compare_self]⟩

/-- Removes what is pending, latest first; whatever depends on something removed is pending from then on. What is stored
    or, where that stays the same, what is pending gets less. -/
def sweep (entities : SortedMap EntityRef Entity) (pending : List EntityRef) : SortedMap EntityRef Entity :=
  match pending with
  | [] => entities
  | r :: rs =>
    if h : entities.contains r then
      have := size_erase_lt h
      sweep (entities.erase r) ((dependents (entities.erase r) r).reverse ++ rs)
    else sweep entities rs
termination_by (entities.size, pending.length)

/-- Removes the roots and, with everything removed, what depends on it. -/
def cascade (entities : SortedMap EntityRef Entity) (roots : List EntityRef) : SortedMap EntityRef Entity :=
  sweep entities roots.reverse

def delete (s : LocalStore) (r : EntityRef) (o : CallOptions) : Except StoreError Unit × LocalStore :=
  if s.refuses r then (.error (refusal r), s)
  else (.ok (), if o.validationOnly then s else s.remove r)

/-- Those that refuse are left out without a word. -/
def deleteAll (s : LocalStore) (rs : List EntityRef) (o : CallOptions) : LocalStore :=
  let allowed := rs.filter fun r => !s.refuses r
  if o.validationOnly then s
  else if o.deleteDependents then { s with entities := cascade s.entities allowed }
  else allowed.foldl remove s

/-! ### Related entities -/

/-- What the stored versions of `rs` relate to, under any blueprint, as it is met for the first time. -/
def relatedRefs (s : LocalStore) (rs : List EntityRef) : List EntityRef :=
  let targets := (rs.filterMap s.get?).flatMap (·.targets)
  (targets.flatMap fun t => s.refs.filter fun k => k.identifier = t).eraseDups

def related (s : LocalStore) (rs : List EntityRef) : Except StoreError (List EntityRef) :=
  if s.relatedAvailable then .ok (s.relatedRefs rs) else .error (.transport "related lookup unavailable" true)

end LocalStore

/-- The store that the state holds. -/
def Store.ofLocal {m : Type → Type} [Monad m] [MonadStateOf LocalStore m] : Store m where
  upsertOne e o _ := modifyGetThe LocalStore fun s => s.write e o
  upsertBatch es o _ := modifyGetThe LocalStore fun s => s.writeAll o es
  deleteOne r o _ := modifyGetThe LocalStore fun s => s.delete r o
  deleteBatch rs o _ := modifyGetThe LocalStore fun s => (.ok (), s.deleteAll rs o)
  related rs := do return (← getThe LocalStore).related rs

end CatalogSync
