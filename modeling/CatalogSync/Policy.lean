import CatalogSync.Json.Codec

/-! How a run treats its store: the options of each call and the two modes of a run. -/

namespace CatalogSync
open Codec

/-- Sent to the store with every write and delete. -/
structure CallOptions where
  /-- Add the stored properties that an entity does not set itself. -/
  merge : Bool := false
  createMissingRelated : Bool := false
  deleteDependents : Bool := false
  /-- Check only, store nothing. -/
  validationOnly : Bool := false
  deriving DecidableEq, Repr, Inhabited

namespace CallOptions

def fields : Fields :=
  [("merge", .any), ("create_missing_related_entities", .any), ("delete_dependent_entities", .any),
    ("validation_only", .any)]

instance : Codec CallOptions where
  shape := .record fields
  encode o := .object [("merge", .bool o.merge), ("create_missing_related_entities", .bool o.createMissingRelated),
    ("delete_dependent_entities", .bool o.deleteDependents), ("validation_only", .bool o.validationOnly)]
  decode j := do
    if isRecord fields j then
      some {
        merge := ← withDefault false fields j "merge"
        createMissingRelated := ← withDefault false fields j "create_missing_related_entities"
        deleteDependents := ← withDefault false fields j "delete_dependent_entities"
        validationOnly := ← withDefault false fields j "validation_only" }
    else none

end CallOptions

structure Policy where
  /-- The store creates missing relation targets: entities are written in one batch, and what they relate to is
      not deleted. Else they are written one by one, dependencies first. -/
  autoCreateRelated : Bool := true
  /-- The store deletes dependents along: entities are deleted in one batch. Else they are deleted one by one,
      dependents first. -/
  cascadeDeletes : Bool := true
  options : CallOptions := {}
  deriving DecidableEq, Repr, Inhabited

namespace Policy

/-- Both modes off. -/
def sequential : Policy := { autoCreateRelated := false, cascadeDeletes := false }

/-- The options to send: the store is always told the modes of the policy. -/
def callOptions (p : Policy) : CallOptions :=
  { p.options with createMissingRelated := p.autoCreateRelated, deleteDependents := p.cascadeDeletes }

def fields : Fields :=
  [("auto_create_missing_related", .any), ("cascade_delete_dependents", .any), ("request_options", shape CallOptions)]

instance : Codec Policy where
  shape := .record fields
  encode p := .object [("auto_create_missing_related", .bool p.autoCreateRelated),
    ("cascade_delete_dependents", .bool p.cascadeDeletes), ("request_options", Codec.encode p.options)]
  decode j := do
    if isRecord fields j then
      some {
        autoCreateRelated := ← withDefault true fields j "auto_create_missing_related"
        cascadeDeletes := ← withDefault true fields j "cascade_delete_dependents"
        options := ← withDefault {} fields j "request_options" }
    else none

end Policy
end CatalogSync
