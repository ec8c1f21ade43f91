import CatalogSync.Event
import CatalogSync.Http.Endpoint
import CatalogSync.Store.Basic
import CatalogSync.Text.Utf8

/-! A store behind the REST interface of a catalog.

Batches go out in one request for each blueprint. A failed request fails the entities that it is about and no
others. -/

namespace CatalogSync

/-- A catalog at a base URL without a slash at its end. -/
structure Catalog (m : Type → Type) where
  baseUrl : String
  client : Http.Client m

namespace Catalog
open Codec Http

def trimUrl (url : String) : String := String.ofList ((url.toList.reverse.dropWhile (· = '/')).reverse)

def atUrl {m : Type → Type} (url : String) (client : Client m) : Catalog m := ⟨trimUrl url, client⟩

def agent (p : Provenance) : String := "recon/0.4.0/" ++ p.text

/-! ### Responses -/

/-- One item of a bulk response, about the entity at `index` of the request. -/
structure StoredItem where
  index : Nat
  deriving Repr

structure RefusedItem where
  index : Nat
  message : String
  deriving Repr

structure BulkResponse where
  entities : List StoredItem
  errors : List RefusedItem
  deriving Repr

def index? (fields : Fields) (j : Json) : Option Nat := do (← field? fields j "index").below? UInt64.size

def storedFields : Fields := [("index", .any)]
def refusedFields : Fields := [("index", .any), ("message", .any)]

def storedItem : Reader StoredItem where
  shape := .record storedFields
  decode j := do if isRecord storedFields j then some ⟨← index? storedFields j⟩ else none

def refusedItem : Reader RefusedItem where
  shape := .record refusedFields
  decode j := do
    if isRecord refusedFields j then
      some ⟨← index? refusedFields j, ← withDefault "" refusedFields j "message"⟩
    else none

def bulkFields : Fields := [("entities", .list storedItem.shape), ("errors", .list refusedItem.shape)]

def bulkResponse : Reader BulkResponse where
  shape := .record bulkFields
  decode j := do
    if isRecord bulkFields j then
      some {
        entities := ← listField storedItem bulkFields j "entities"
        errors := ← listField refusedItem bulkFields j "errors" }
    else none

def upsertFields : Fields := [("entity", shape Entity)]

/-- The stored version, if the response has it. -/
def upsertResponse : Reader (Option Entity) where
  shape := .record upsertFields
  decode j := do if isRecord upsertFields j then withDefault none upsertFields j "entity" else none

def searchFields : Fields := [("entities", shape (List Entity))]

def searchResponse : Reader (List Entity) where
  shape := .record searchFields
  decode j := do if isRecord searchFields j then withDefault [] searchFields j "entities" else none

/-- The blueprints that the relations of a blueprint lead to. -/
abbrev Schema := SortedMap String String

def relationFields : Fields := [("target", .any)]
def blueprintFields : Fields := [("relations", .table (.record relationFields))]
def schemaFields : Fields := [("blueprint", .record blueprintFields)]

def relationTarget? (j : Json) : Option String := do
  if isRecord relationFields j then required relationFields j "target" else none

def schemaResponse : Reader Schema where
  shape := .record schemaFields
  decode j := do
    if isRecord schemaFields j then
      let b ← field? schemaFields j "blueprint"
      if isRecord blueprintFields b then
        match field? blueprintFields b "relations" with
        | none => some ∅
        | some relations =>
          SortedMap.ofList <$> (← relations.object?).mapM fun m => (relationTarget? m.2).map (m.1, ·)
      else none
    else none

/-! ### Calls -/

variable {m : Type → Type} [Monad m] [Reporting m]

def request (c : Catalog m) (e : Endpoint) (body : Option Json) (p : Provenance) : Request where
  method := e.method
  url := c.baseUrl ++ e.path
  headers := [("User-Agent", agent p), ("Content-Type", "application/json")]
  body := body.map Json.compact

/-- What a response means; an empty body means null. -/
def answer {α : Type} (reader : Reader α) : Except String Response → Except StoreError α
  | .error message => .error (.transport message true)
  | .ok r =>
    if r.isSuccess then
      match reader.ofBytes? (if r.body.isEmpty then Text.bytes "null" else r.body) with
      | some x => .ok x
      | none => .error (.codec "failed to decode response")
    else
      let message := Text.decodeLossy r.body
      .error (if r.status = 404 then .notFound message else .rejected r.status message)

def call {α : Type} (c : Catalog m) (reader : Reader α) (e : Endpoint) (body : Option Json) (p : Provenance) :
    m (Except StoreError α) := do
  let r := c.request e body p
  report (.requested r.method r.url)
  return answer reader (← c.client.send r)

/-! ### Groups -/

variable {α : Type} [Keyed α]

/-- The blueprints of the items, each where it first appears. -/
def blueprints (xs : List α) : List String := (xs.map Keyed.blueprint).eraseDups

/-- The items of a blueprint, in order. -/
def group (xs : List α) (blueprint : String) : List α := xs.filter fun x => Keyed.blueprint x = blueprint

/-- Gives each item the next of the results of its group. -/
def distribute {ρ : Type} (fallback : ρ) : List String → (String → List ρ) → List ρ
  | [], _ => []
  | b :: bs, results =>
    (results b).headD fallback ::
      distribute fallback bs fun c => if c = b then (results b).tail else results c

/-- The results for the entities of one request. An index out of range counts for nothing; an error outdoes an
    item, and a later error an earlier one. -/
def bulkResults (es : List Entity) (r : BulkResponse) : List (Except StoreError Entity) :=
  let missing : List (Except StoreError Entity) := es.map fun _ => .error (.codec "entity missing from bulk response")
  let stored := r.entities.foldl (fun rs i =>
    match es[i.index]? with
    | some e => rs.set i.index (.ok e)
    | none => rs) missing
  r.errors.foldl (fun rs e => rs.set e.index (.error (.rejected 422 e.message))) stored

def entitiesBody (js : List Json) : Json := .object [("entities", .array js)]

def writeGroup (c : Catalog m) (es : List Entity) (o : CallOptions) (p : Provenance) (blueprint : String) :
    m (List (Except StoreError Entity)) := do
  match ← c.call bulkResponse (.upsertBulk blueprint o) (some (entitiesBody (es.map encode))) p with
  | .error err => return es.map fun _ => .error err
  | .ok r => return bulkResults es r

def deleteGroup (c : Catalog m) (rs : List EntityRef) (o : CallOptions) (p : Provenance) (blueprint : String) :
    m (Except StoreError Json) :=
  c.call (reader Json) (.deleteBulk blueprint o) (some (entitiesBody (rs.map fun r => .string r.identifier))) p

/-! ### Related entities -/

def equals (property value : String) : Json :=
  .object [("operator", .string "="), ("property", .string property), ("value", .string value)]

def rule (r : EntityRef) : Json :=
  .object [("combinator", .string "and"),
    ("rules", .array [equals "$identifier" r.identifier, equals "$blueprint" r.blueprint])]

def query (rs : List EntityRef) : Json := .object [("combinator", .string "or"), ("rules", .array (rs.map rule))]

/-- The targets of the relations that the schema declares. -/
def relationRefs (schema : Schema) (e : Entity) : List EntityRef :=
  e.relations.entries.flatMap fun (name, target) =>
    match schema.get? name with
    | none => []
    | some blueprint => target.identifiers.map fun id => ⟨id, blueprint⟩

/-- The targets of all `es`, with each schema fetched when it is first needed. -/
def resolve (c : Catalog m) : List (String × Schema) → List Entity → m (Except StoreError (List EntityRef))
  | _, [] => return .ok []
  | known, e :: es => do
    match known.lookup e.blueprint with
    | some schema => return (← resolve c known es).map (relationRefs schema e ++ ·)
    | none =>
      match ← c.call schemaResponse (.schema e.blueprint) none .automated with
      | .error err => return .error err
      | .ok schema =>
        return (← resolve c ((e.blueprint, schema) :: known) es).map (relationRefs schema e ++ ·)

def related (c : Catalog m) (rs : List EntityRef) : m (Except StoreError (List EntityRef)) := do
  if rs.isEmpty then return .ok []
  match ← c.call searchResponse .search (some (query rs)) .automated with
  | .error err => return .error err
  | .ok es => return (← c.resolve [] es).map List.eraseDups

/-! ### The store -/

def firstError? {ε β : Type} (results : List (Except ε β)) : Option ε :=
  results.findSome? fun
    | .error err => some err
    | .ok _ => none

end Catalog

open Catalog in
def Store.catalog {m : Type → Type} [Monad m] [Reporting m] (c : Catalog m) : Store m where
  upsertOne e o p := do
    return (← c.call upsertResponse (.upsert e.blueprint o) (some (Codec.encode e)) p).map (·.getD e)
  upsertBatch es o p := do
    let results ← (blueprints es).mapM fun b => do return (b, ← c.writeGroup (group es b) o p b)
    return distribute (.error (.codec "entity was not sent")) (es.map (·.blueprint)) fun b =>
      (results.lookup b).getD []
  deleteOne r o p := do
    return (← c.call (Codec.reader Json) (.delete r o) none p).map fun _ => ()
  deleteBatch rs o p := do
    let results ← (blueprints rs).mapM fun b => c.deleteGroup (group rs b) o p b
    match firstError? results with
    | some err => return .error err
    | none => return .ok ()
  related rs := c.related rs

end CatalogSync
