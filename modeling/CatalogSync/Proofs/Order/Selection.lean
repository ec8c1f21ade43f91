import CatalogSync.Proofs.Order.Dependencies

/-! Which item comes next, said of the items alone.

First come the items that take no part. Of the others each time the lowest one comes whose prerequisites have all
come; where there is none, the lowest one of a component that waits for nothing outside itself. -/

namespace CatalogSync.Order
open Relation

variable {α : Type} [Linked α] {d : Direction} {items : List α} {u v : Nat}

/-! ### Items and their prerequisites -/

/-- Must the item at `j` come before the one at `i`? -/
def ComesAfter (d : Direction) (items : List α) (i j : Nat) : Prop :=
  match d with
  | .creation => DependsAt .creation items i j
  | .deletion => DependsAt .deletion items j i

instance : DecidableRel (ComesAfter d items) := fun i j =>
  match d with
  | .creation => inferInstanceAs (Decidable (DependsAt .creation items i j))
  | .deletion => inferInstanceAs (Decidable (DependsAt .deletion items j i))

def TakesPartAt (d : Direction) (items : List α) (i : Nat) : Prop := ∃ x ∈ items[i]?, takesPart d x

instance : DecidablePred (TakesPartAt d items) := fun i =>
  inferInstanceAs (Decidable (∃ x ∈ items[i]?, takesPart d x))

/-- The positions of the items that come first, in the order given. -/
def leading (d : Direction) (items : List α) : List Nat :=
  match d with
  | .creation => (List.range items.length).filter fun i => items[i]?.any Linked.usesSearchIdentifier
  | .deletion => []

theorem waits_prerequisites : (prerequisites d items).Waits = ComesAfter d items := by
  funext v u
  cases d with
  | creation => exact propext mem_next_creation
  | deletion => exact propext mem_next_deletion

theorem mem_nodes_eq : (· ∈ nodes d items) = TakesPartAt d items := funext fun _ => propext mem_nodes

omit [Linked α] in
theorem positions_eq (P : α → Bool) : (items.zipIdx.filter fun x => P x.1).map (·.2) =
    (List.range items.length).filter fun i => items[i]?.any P := by
  have hrange : List.range items.length = items.zipIdx.map (·.2) := by simp [List.range_eq_range']
  rw [hrange, List.filter_map]
  refine congrArg (List.map _) (List.filter_congr fun x hx => ?_)
  have hget : items[x.2]? = some x.1 := List.mem_zipIdx_iff_getElem?.mp hx
  simp [hget]

theorem exempt_eq_leading : exempt d items = leading d items := by
  rw [exempt, positions_eq fun x => !takesPart d x]
  cases d with
  | creation => simp [leading, takesPart, show (Direction.creation == .deletion) = false from rfl]
  | deletion => simp [leading, takesPart]

/-! ### The order -/

/-- What the positions are ordered by. -/
def graph (d : Direction) (items : List α) : Sequence.Graph := .ofPrerequisites (prerequisites d items)

theorem sequel_steps : Sequel (ComesAfter d items) (TakesPartAt d items) [] ((steps d items).map (·.node)) := by
  rw [← waits_prerequisites, ← mem_nodes_eq]
  exact Sequence.sequel_run closed_prerequisites among_nodes

/-- The order is what `leading` and `Sequel` describe, and nothing else is. Wherever nothing is ready, a component
    can be entered. -/
theorem indices_eq_iff (d : Direction) (items : List α) :
    (∀ l, indices d items = l ↔ ∃ rest, l = leading d items ++ rest ∧
      Sequel (ComesAfter d items) (TakesPartAt d items) [] rest) ∧
    ∀ p, ReflTransGen (Sequence.Progress.Leads (graph d items)) (.start (graph d items) (nodes d items)) p →
      p.ready = [] → p.remaining ≠ [] → ∃ v, p.remaining.find? (p.canEnter (graph d items)) = some v := by
  refine ⟨fun l => ⟨?_, ?_⟩, fun p hp _ hne => ?_⟩
  · rintro rfl
    exact ⟨_, by rw [indices, exempt_eq_leading], sequel_steps⟩
  · rintro ⟨rest, rfl, hrest⟩
    rw [indices, exempt_eq_leading, hrest.unique sequel_steps]
  · have hg : (graph d items).Consistent := Sequence.Graph.consistent_ofPrerequisites closed_prerequisites
    obtain ⟨past, htracks⟩ := Sequence.exists_tracks hg among_nodes hp
    exact htracks.exists_find hg among_nodes hne

/-- No item of the two cycles is ready at first. The one that waits for the other cycle is not entered. -/
theorem twoCycles_selected :
    Sequel (ComesAfter .creation twoCycles) (TakesPartAt .creation twoCycles) [] [2, 3, 0, 1] ∧
      ∃ v, (nodes .creation twoCycles).find? (Sequence.Progress.canEnter (graph .creation twoCycles)
        (.start (graph .creation twoCycles) (nodes .creation twoCycles))) = some v := by
  obtain ⟨hindices, henter⟩ := indices_eq_iff .creation twoCycles
  obtain ⟨rest, hrest, hsequel⟩ := (hindices [2, 3, 0, 1]).mp (by decide)
  rw [show leading .creation twoCycles = [] by decide, List.nil_append] at hrest
  exact ⟨hrest ▸ hsequel, henter _ .refl (by decide) (by decide)⟩

end CatalogSync.Order
