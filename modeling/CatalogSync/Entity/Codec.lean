import CatalogSync.Entity.Basic
import CatalogSync.Json.Codec

/-! The JSON form of entities and references. Fields with nothing to say are not written. -/

namespace CatalogSync
open Codec

instance : Codec RelationTarget where
  shape := .any
  encode
    | .empty => .null
    | .one id => .string id
    | .many ids => .strings ids
  decode
    | .null => some .empty
    | .string id => some (.one id)
    | .array items => .many <$> items.mapM Json.string?
    | _ => none

namespace EntityRef

def fields : Fields := [("identifier", .any), ("blueprint", .any)]

instance : Codec EntityRef where
  shape := .record fields
  encode r := .object [("identifier", .string r.identifier), ("blueprint", .string r.blueprint)]
  decode j := do
    if isRecord fields j then
      some {
        identifier := ← required fields j "identifier"
        blueprint := ← required fields j "blueprint" }
    else none

end EntityRef

namespace Entity

def fields : Fields :=
  [("identifier", .any), ("blueprint", .any), ("title", .any), ("team", shape (List String)), ("icon", .any),
    ("properties", shape (SortedMap String Json)), ("relations", shape (SortedMap String RelationTarget)),
    ("usesSearchIdentifier", .any)]

/-- The field, unless it has nothing to say. -/
def fieldUnless (silent : Bool) (name : String) (value : Json) : List (String × Json) :=
  if silent then [] else [(name, value)]

instance : Codec Entity where
  shape := .record fields
  encode e := .object <|
    [("identifier", .string e.identifier), ("blueprint", .string e.blueprint)] ++
    fieldUnless e.title.isNone "title" (Codec.encode e.title) ++
    fieldUnless e.team.isEmpty "team" (Codec.encode e.team) ++
    fieldUnless e.icon.isNone "icon" (Codec.encode e.icon) ++
    [("properties", Codec.encode e.properties), ("relations", Codec.encode e.relations)] ++
    fieldUnless (!e.usesSearchIdentifier) "usesSearchIdentifier" (.bool e.usesSearchIdentifier)
  decode j := do
    if isRecord fields j then
      some {
        identifier := ← required fields j "identifier"
        blueprint := ← required fields j "blueprint"
        title := ← withDefault none fields j "title"
        team := ← withDefault [] fields j "team"
        icon := ← withDefault none fields j "icon"
        properties := ← withDefault ∅ fields j "properties"
        relations := ← withDefault ∅ fields j "relations"
        usesSearchIdentifier := ← withDefault false fields j "usesSearchIdentifier" }
    else none

end Entity
end CatalogSync
