import CatalogSync.Entity.Basic
import CatalogSync.Http.Message
import CatalogSync.Policy
import CatalogSync.Text.Percent

/-! What a request to a catalog addresses. -/

namespace CatalogSync.Http

inductive Endpoint
  | upsert (blueprint : String) (options : CallOptions)
  | upsertBulk (blueprint : String) (options : CallOptions)
  | delete (ref : EntityRef) (options : CallOptions)
  | deleteBulk (blueprint : String) (options : CallOptions)
  | search
  /-- What a blueprint declares. -/
  | schema (blueprint : String)
  deriving DecidableEq, Repr

namespace Endpoint

def method : Endpoint → Method
  | upsert .. | upsertBulk .. | deleteBulk .. | search => .post
  | delete .. => .delete
  | schema _ => .get

def flag (b : Bool) : String := if b then "true" else "false"

def blueprintPath (blueprint : String) : String := "/v1/blueprints/" ++ Text.Percent.encode blueprint

def writeQuery (o : CallOptions) : String :=
  "?upsert=true&merge=" ++ flag o.merge ++ "&create_missing_related_entities=" ++ flag o.createMissingRelated ++
    "&validation_only=" ++ flag o.validationOnly

def deleteQuery (o : CallOptions) : String := "?delete_dependents=" ++ flag o.deleteDependents

/-- Path and query below the base URL. -/
def path : Endpoint → String
  | upsert b o => blueprintPath b ++ "/entities" ++ writeQuery o
  | upsertBulk b o => blueprintPath b ++ "/entities/bulk" ++ writeQuery o
  | delete r o => blueprintPath r.blueprint ++ "/entities/" ++ Text.Percent.encode r.identifier ++ deleteQuery o
  | deleteBulk b o => blueprintPath b ++ "/bulk/entities/delete" ++ deleteQuery o
  | search => "/v1/entities/search"
  | schema b => blueprintPath b

end Endpoint
end CatalogSync.Http
