import CatalogSync.Entity.Codec

/-! What was stored before a change and what should be stored after it. -/

namespace CatalogSync
open Codec

structure Diff (α : Type) where
  before : List α := []
  after : List α := []
  deriving BEq, Inhabited

namespace Diff

variable {α : Type}

def refs [Keyed α] (d : Diff α) : Diff EntityRef := ⟨Keyed.keys d.before, Keyed.keys d.after⟩

def fields (α : Type) [Codec α] : Fields := [("before", shape (List α)), ("after", shape (List α))]

instance [Codec α] : Codec (Diff α) where
  shape := .record (fields α)
  encode d := .object [("before", Codec.encode d.before), ("after", Codec.encode d.after)]
  decode j := do
    if isRecord (fields α) j then
      some {
        before := ← withDefault [] (fields α) j "before"
        after := ← withDefault [] (fields α) j "after" }
    else none

end Diff
end CatalogSync
