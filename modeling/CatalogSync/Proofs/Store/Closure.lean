import CatalogSync.Entity.Sample
import CatalogSync.Proofs.Store.Cascade
import CatalogSync.Proofs.Store.Willing
import Mathlib.Order.Bounds.Basic

/-! What a cascade takes is the least set that has its stored roots and, with any member, all that relates to it. -/

namespace CatalogSync.LocalStore
open Relation Sample

variable {entities : SortedMap EntityRef Entity} {roots : List EntityRef} {k : EntityRef} {R : Set EntityRef}

/-- The stored ones of `roots` are in it, and with any member whatever relates to the member's identifier. -/
structure ClosedOver (entities : SortedMap EntityRef Entity) (roots : List EntityRef) (R : Set EntityRef) : Prop where
  roots : ∀ r ∈ roots, entities.contains r → r ∈ R
  dependents : ∀ r ∈ R, ∀ k e, entities.get? k = some e → r.identifier ∈ e.targets → k ∈ R

theorem closedOver_taken : ClosedOver entities roots {k | Taken entities roots k} where
  roots r hr hstored := ⟨r, hr, hstored, .refl⟩
  dependents := by
    intro r hr k e hget ht
    have hstored := contains_of_taken hr
    obtain ⟨root, hroot, hstore, hway⟩ := hr
    exact ⟨root, hroot, hstore, .head ⟨hstored, e, hget, ht⟩ hway⟩

/-- A way to a root is followed backwards, from the root on. -/
theorem ClosedOver.mem_of_taken (hR : ClosedOver entities roots R) (h : Taken entities roots k) :
    k ∈ R := by
  obtain ⟨r, hr, hstored, hway⟩ := h
  induction hway using ReflTransGen.head_induction_on with
  | refl => exact hR.roots r hr hstored
  | head hstep _ ih =>
    obtain ⟨-, e, hget, ht⟩ := hstep
    exact hR.dependents _ ih _ e hget ht

/-- What a cascade leaves is exactly what is not in the least closed set over its roots, and only the stored roots
    count, in whatever order. -/
theorem cascade_leaves_rest (entities : SortedMap EntityRef Entity) (roots : List EntityRef) (h : WellKeyed entities) :
    ∃ R, IsLeast {R | ClosedOver entities roots R} R ∧
      (∀ k e, (cascade entities roots).get? k = some e ↔ entities.get? k = some e ∧ k ∉ R) ∧
      ∀ rs, (∀ r, entities.contains r → (r ∈ rs ↔ r ∈ roots)) → cascade entities rs = cascade entities roots := by
  refine ⟨{k | Taken entities roots k}, ⟨closedOver_taken, fun R hR k hk => hR.mem_of_taken hk⟩, fun k e => ?_, fun rs => ?_⟩
  · exact get?_cascade h
  · exact cascade_congr h

/-- Two services that depend on each other, one that depends on the first, and one that relates to itself. -/
def ring : LocalStore :=
  let item (id target : String) : Entity :=
    { identifier := id, blueprint := "service" : Entity }.withRelation "next" (.one target)
  ofEntities [item "a" "b", item "b" "a", item "c" "a", item "d" "d"]

/-- A root is listed twice, another one is not stored. The cycle goes, and what depends on it. -/
theorem ring_leaves_one :
    let roots := [serviceRef "b", serviceRef "ghost", serviceRef "b"]
    WellKeyed ring.entities ∧ cascade ring.entities [serviceRef "b"] = cascade ring.entities roots ∧
      (cascade ring.entities roots).get? (serviceRef "c") = none ∧
      (cascade ring.entities roots).get? (serviceRef "d") = ring.get? (serviceRef "d") := by
  intro roots
  have hkeyed : WellKeyed ring.entities := (willing_ofEntities _).keyed
  obtain ⟨R, ⟨hclosed, hleast⟩, hget, hcongr⟩ := cascade_leaves_rest ring.entities roots hkeyed
  have hb : serviceRef "b" ∈ R := hclosed.roots _ List.mem_cons_self (by decide +kernel)
  have ha : serviceRef "a" ∈ R := hclosed.dependents _ hb _ _ rfl (by decide +kernel)
  have hc : serviceRef "c" ∈ R := hclosed.dependents _ ha _ _ rfl (by decide +kernel)
  let taken := [serviceRef "a", serviceRef "b", serviceRef "c"]
  have htaken : ClosedOver ring.entities roots {k | k ∈ taken} := by
    have hrest : ∀ x ∈ ring.entities.entries, ∀ r ∈ taken, r.identifier ∈ x.2.targets → x.1 ∈ taken := by decide +kernel
    exact ⟨by decide +kernel, fun r hr k e hk => hrest (k, e) (SortedMap.get?_eq_some_iff.mp hk) r hr⟩
  have hd : serviceRef "d" ∉ R := fun hd => absurd (hleast htaken hd) (by decide)
  have hghost : ¬ ring.entities.contains (serviceRef "ghost") := by decide +kernel
  refine ⟨hkeyed, hcongr _ fun r hr => ?_, Option.eq_none_iff_forall_ne_some.mpr fun e he => ?_, ?_⟩
  · have hne : r ≠ serviceRef "ghost" := fun h => hghost (h ▸ hr)
    simp [roots, hne]
  · exact ((hget _ e).mp he).2 hc
  · exact Option.ext fun e => (hget _ e).trans (and_iff_left hd)

end CatalogSync.LocalStore
