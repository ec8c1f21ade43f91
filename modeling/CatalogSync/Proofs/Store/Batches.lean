import CatalogSync.Proofs.Collections
import CatalogSync.Proofs.Http.RoundTrips
import Mathlib.Data.List.Basic

/-! Batches sent to a catalog: one request for each blueprint, and a result for each entity of the batch.

A result is found twice by position. In the response it stands under the place of its entity in the group, and in the
answer to the batch under the place of its entity in the whole. Both times the place is counted from the entities
before it, so no group can come out short and no result goes to another entity. -/

namespace CatalogSync.Catalog
open Codec Http

/-! ### Groups -/

section Groups
variable {α : Type} [Keyed α] {ρ : Type}

/-- Each of `names` once, in the order in which they first appear. -/
structure FirstAppearances (names bs : List String) : Prop where
  mem : ∀ b, b ∈ bs ↔ b ∈ names
  order : bs.Pairwise fun a b => names.idxOf a < names.idxOf b

theorem firstAppearances_eraseDups (names : List String) : FirstAppearances names names.eraseDups :=
  ⟨(firstOccurrences_eraseDups names).mem, (firstOccurrences_eraseDups names).order⟩

/-- How many of the items before position `i` are of the same blueprint. -/
def place (xs : List α) (i : Nat) (blueprint : String) : Nat :=
  (xs.take i).countP fun x => Keyed.blueprint x = blueprint

end Groups

/-! ### One response -/

section Responses
variable {e : Entity} {es : List Entity} {j : Nat} {r : BulkResponse} {outcome : Except String Response}
  {result : Except StoreError Entity}

/-- The results of a group, given what came of its call. -/
def groupResults (es : List Entity) : Except StoreError BulkResponse → List (Except StoreError Entity)
  | .error err => es.map fun _ => .error err
  | .ok r => bulkResults es r

end Responses

/-! ### Whole batches -/

section Whole
variable {γ : Type} {es : List Entity} {o : CallOptions} {p : Provenance}

/-- The request for the entities of one blueprint. -/
def bulkRequest {m : Type → Type} (c : Catalog m) (es : List Entity) (o : CallOptions) (p : Provenance)
    (blueprint : String) : Request where
  method := .post
  url := c.baseUrl ++ (Endpoint.upsertBulk blueprint o).path
  headers := [("User-Agent", agent p), ("Content-Type", "application/json")]
  body := some (Json.object [("entities", .array ((es.filter fun e => e.blueprint = blueprint).map encode))]).compact

theorem sends_writeGroup (c : Catalog (StateM γ)) (es : List Entity) (b : String) : Sends (c.noted.writeGroup (group es b) o p b)
    (bulkRequest c es o p b) (groupResults (group es b) ∘ answer bulkResponse) := by
  have hmap : c.noted.writeGroup (group es b) o p b = groupResults (group es b) <$>
      c.noted.call bulkResponse (.upsertBulk b o) (some (entitiesBody ((group es b).map encode))) p := by
    rw [map_eq_pure_bind]
    refine congrArg _ (funext fun a => ?_)
    cases a <;> rfl
  rw [hmap]
  exact (sends_call c bulkResponse (.upsertBulk b o) _ p).map _

theorem upsertBatch_eq (c : Catalog (StateM γ)) (es : List Entity) (o : CallOptions) (p : Provenance) :
    (Store.catalog c.noted).upsertBatch es o p =
      (fun results => distribute (.error (.codec "entity was not sent")) (es.map Keyed.blueprint) fun b =>
        (results.lookup b).getD []) <$>
      (blueprints es).mapM fun b => (b, ·) <$> c.noted.writeGroup (group es b) o p b := rfl

end Whole

end CatalogSync.Catalog
