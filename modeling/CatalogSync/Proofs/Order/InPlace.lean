import CatalogSync.Proofs.Order.Selection

/-! Items that are in order already.

Where each item waits for earlier ones only, the lowest one that has not come yet is free whenever another comes. -/

namespace CatalogSync.Order

variable {α : Type} [Linked α] {d : Direction} {items : List α} {n : Nat}

theorem eq_range_of_split {pre post : List Nat} {v : Nat} (h : List.range n = pre ++ v :: post) :
    pre = List.range v := by
  have hv : v = pre.length := by
    have hget : (List.range n)[pre.length]? = some v := by rw [h, List.getElem?_append_right (Nat.le_refl _)]; simp
    obtain ⟨hlt, hget⟩ := List.getElem?_eq_some_iff.mp hget
    rw [← hget, List.getElem_range]
  have htake : (List.range n).take v = pre := by rw [h, hv, List.take_left]
  rw [← htake, List.take_range, Nat.min_eq_left]
  have hlen := congrArg List.length h
  rw [List.length_range, List.length_append, List.length_cons] at hlen
  omega

theorem le_of_split {pre post : List Nat} {u v : Nat} (h : List.range n = pre ++ v :: post) (hu : u ∈ v :: post) :
    v ≤ u := by
  have hascending : (pre ++ v :: post).Pairwise (· < ·) := h ▸ List.pairwise_lt_range
  obtain ⟨hv, -⟩ := List.pairwise_cons.mp (List.pairwise_append.mp hascending).2.1
  rcases List.mem_cons.mp hu with rfl | hu
  · exact Nat.le_refl u
  · exact Nat.le_of_lt (hv u hu)

/-- Nothing else can be the order if each item is free when it comes and no lower one of those behind it is. -/
theorem indices_eq_of_isLeast {xs : List Nat} (hpart : ∀ x ∈ items, takesPart d x)
    (hp : xs.Perm (List.range items.length))
    (hleast : ∀ pre v post, xs = pre ++ v :: post →
      IsLeast {u | u ∈ v :: post ∧ Free (ComesAfter d items) pre u} v) : indices d items = xs := by
  have hexempt : exempt d items = [] := by
    rw [exempt, List.map_eq_nil_iff, List.filter_eq_nil_iff]
    intro x hx
    simp [hpart x.1 (List.fst_mem_of_mem_zipIdx hx)]
  have htakes : ∀ i, TakesPartAt d items i ↔ i ∈ xs := fun i => by
    rw [hp.mem_iff, List.mem_range]
    constructor
    · rintro ⟨x, hx, -⟩
      exact (List.getElem?_eq_some_iff.mp hx).1
    · intro hi
      exact ⟨items[i], List.getElem?_eq_getElem hi, hpart _ (List.getElem_mem hi)⟩
  rw [indices, hexempt, List.nil_append]
  exact sequel_steps.unique (.of_isLeast htakes (hp.nodup_iff.mpr List.nodup_range) hleast)

theorem indices_eq_range (hpart : ∀ x ∈ items, takesPart d x) (h : ∀ i j, ComesAfter d items i j → j < i) :
    indices d items = List.range items.length := by
  refine indices_eq_of_isLeast hpart (.refl _) fun pre v post hsplit => ⟨⟨List.mem_cons_self, fun u hu => ?_⟩, ?_⟩
  · rw [eq_range_of_split hsplit]
    exact List.mem_range.mpr (h v u hu)
  · exact fun u hu => le_of_split hsplit hu.1

theorem order_eq_self (hpart : ∀ x ∈ items, takesPart d x) (h : ∀ i j, ComesAfter d items i j → j < i) :
    order d items = items := by
  rw [order, indices_eq_range hpart h, filterMap_range]

/-- Nothing is known of references but their keys, so none waits for another. -/
theorem order_refs (d : Direction) (rs : List EntityRef) : order d rs = rs := by
  have hnone : ∀ d i j, ¬ DependsAt d rs i j := by
    rintro d i j ⟨-, x, -, y, -, -, -, hdepends⟩
    cases hdepends
  refine order_eq_self (fun _ _ => by cases d <;> rfl) fun i j h => ?_
  cases d with
  | creation => exact absurd h (hnone _ i j)
  | deletion => exact absurd h (hnone _ j i)

end CatalogSync.Order
