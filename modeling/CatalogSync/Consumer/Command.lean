import CatalogSync.Diff
import CatalogSync.Provenance

/-! Commands that messages carry. -/

namespace CatalogSync
open Codec

inductive Command
  /-- Write what should be stored and delete what should not. -/
  | apply (provenance : Provenance) (diff : Diff Entity)
  /-- Delete only. -/
  | delete (provenance : Provenance) (diff : Diff EntityRef)
  deriving BEq, Inhabited

namespace Command

def provenance : Command → Provenance
  | apply p _ => p
  | delete p _ => p

/-- The fields of a command whose diff is over `α`. -/
def fields (α : Type) [Codec α] : Fields :=
  [("provenance", shape Provenance), ("before", shape (List α)), ("after", shape (List α))]

def variants : List (String × Fields) := [("apply", fields Entity), ("delete", fields EntityRef)]

/-- The fields with the one that tells the kind. -/
def taggedFields (α : Type) [Codec α] : Fields := ("kind", .any) :: fields α

def decodeBody (α : Type) [Codec α] (j : Json) : Option (Provenance × Diff α) := do
  let fs := taggedFields α
  if isRecord fs j then
    let provenance ←
      match field? fs j "provenance" with
      | none => some .automated
      | some v => Provenance.decodeHeld v
    some (provenance, {
      before := ← withDefault [] fs j "before"
      after := ← withDefault [] fs j "after" })
  else none

def encodeBody {α : Type} [Codec α] (kind : String) (p : Provenance) (d : Diff α) : Json :=
  .object [("kind", .string kind), ("provenance", encode p), ("before", encode d.before), ("after", encode d.after)]

instance : Codec Command where
  shape := .tagged "kind" variants
  encode
    | apply p d => encodeBody "apply" p d
    | delete p d => encodeBody "delete" p d
  decode j := do
    let kind ← field? [("kind", .any)] j "kind" >>= Json.string?
    if kind = "apply" then (fun b => apply b.1 b.2) <$> decodeBody Entity j
    else if kind = "delete" then (fun b => delete b.1 b.2) <$> decodeBody EntityRef j
    else none

end Command
end CatalogSync
