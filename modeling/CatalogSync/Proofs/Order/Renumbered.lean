import CatalogSync.Proofs.Order.Selection
import Mathlib.Data.List.Sort
import Mathlib.Logic.Equiv.Basic

/-! Items that are in order stay as they are.

In their new places the items wait for the same ones as before, so at every step the same ones are free, and the same
components can be entered. What came next the first time is now the lowest of all that are pending, so it comes next
again. -/

namespace CatalogSync.Order
open Relation Function

/-! ### Other numbers for the same nodes -/

section Numbers
variable {R : Nat → Nat → Prop} {T : Nat → Prop} {f : Nat ≃ Nat} {past rest : List Nat} {u v : Nat}

theorem reflTransGen_onFun : ReflTransGen (R on f) u v ↔ ReflTransGen R (f u) (f v) := by
  have hback : R ≤ ((R on f) on f.symm) := fun a b h => by simpa [onFun] using h
  refine ⟨fun h => h.lift f fun _ _ => id, fun h => ?_⟩
  simpa [onFun] using h.lift f.symm hback

theorem entangled_onFun : Entangled (R on f) u v ↔ Entangled R (f u) (f v) :=
  and_congr reflTransGen_onFun reflTransGen_onFun

theorem mem_map_numbers : f v ∈ past.map f ↔ v ∈ past := List.mem_map_of_injective f.injective

theorem pending_onFun : Pending (T ∘ f) past v ↔ Pending T (past.map f) (f v) :=
  and_congr_right fun _ => not_congr mem_map_numbers.symm

theorem free_onFun : Free (R on f) past v ↔ Free R (past.map f) (f v) :=
  f.forall_congr fun _ => imp_congr_right fun _ => mem_map_numbers.symm

theorem enterable_onFun : Enterable (R on f) (T ∘ f) past v ↔ Enterable R T (past.map f) (f v) := by
  refine f.forall_congr fun m => imp_congr pending_onFun (imp_congr entangled_onFun ?_)
  exact f.forall_congr fun _ => imp_congr_right fun _ => imp_congr (not_congr mem_map_numbers.symm) entangled_onFun

/-- What comes next under the old numbers does so under the new ones, if these put it before all that is pending. -/
theorem IsNext.onFun (h : IsNext R T (past.map f) (f v)) (hlow : ∀ u, Pending (T ∘ f) past u → v ≤ u) :
    IsNext (R on f) (T ∘ f) past v := by
  rcases h with ⟨⟨hv, hfree⟩, -⟩ | ⟨hnone, ⟨hv, henter⟩, -⟩
  · exact .inl ⟨⟨pending_onFun.mpr hv, free_onFun.mpr hfree⟩, fun u hu => hlow u hu.1⟩
  · refine .inr ⟨fun u hu hfree => ?_, ⟨pending_onFun.mpr hv, enterable_onFun.mpr henter⟩, fun u hu => hlow u hu.1⟩
    exact hnone (f u) (pending_onFun.mp hu) (free_onFun.mp hfree)

/-- Nodes that are numbered as they come, come in the order of their numbers. -/
theorem Sequel.onFun (h : Sequel R T (past.map f) (rest.map f)) (ha : rest.Pairwise (· < ·)) :
    Sequel (R on f) (T ∘ f) past rest := by
  induction rest generalizing past with
  | nil =>
    cases h with
    | done h => exact .done fun v hv => h (f v) (pending_onFun.mp hv)
  | cons v rest ih =>
    obtain ⟨hv, ha⟩ := List.pairwise_cons.mp ha
    have hlow : ∀ u, Pending (T ∘ f) past u → v ≤ u := fun u hu => by
      rcases List.mem_cons.mp (mem_map_numbers.mp (h.mem (pending_onFun.mp hu))) with rfl | hmem
      · exact Nat.le_refl _
      · exact (hv u hmem).le
    cases h with
    | next h hr => exact .next (h.onFun hlow) (ih (by simpa using hr) ha)

/-- A list of all numbers below a bound, as a numbering. -/
theorem exists_numbering {l : List Nat} {n : Nat} (h : l.Perm (List.range n)) :
    ∃ f : Nat ≃ Nat, l = (List.range n).map f ∧ ∀ i, n ≤ i → f i = i := by
  have hlen : l.length = n := by simpa using h.length_eq
  have hnodup : l.Nodup := h.nodup_iff.mpr List.nodup_range
  have hlt : ∀ i (hi : i < l.length), l[i] < n := fun i hi => List.mem_range.mp (h.subset (List.getElem_mem hi))
  let number (i : Nat) : Nat := l[i]?.getD i
  have hbelow : ∀ i (hi : i < l.length), number i = l[i] := fun i hi => by simp [number, hi]
  have habove : ∀ i, l.length ≤ i → number i = i := fun i hi => by simp [number, hi]
  have hinjective : Injective number := by
    intro i j hij
    by_cases hi : i < l.length <;> by_cases hj : j < l.length
    · rw [hbelow i hi, hbelow j hj] at hij
      exact (hnodup.getElem_inj_iff).mp hij
    · have := hlt i hi
      rw [hbelow i hi, habove j (by omega)] at hij
      omega
    · have := hlt j hj
      rw [habove i (by omega), hbelow j hj] at hij
      omega
    · rwa [habove i (by omega), habove j (by omega)] at hij
  have hsurjective : Surjective number := by
    intro k
    by_cases hk : k < n
    · obtain ⟨i, hi, hik⟩ := List.getElem_of_mem (h.symm.subset (List.mem_range.mpr hk))
      exact ⟨i, (hbelow i hi).trans hik⟩
    · exact ⟨k, habove k (by omega)⟩
  refine ⟨.ofBijective number ⟨hinjective, hsurjective⟩, ?_, fun i hi => habove i (by omega)⟩
  refine List.ext_getElem (by simp [hlen]) fun i hi _ => ?_
  rw [List.getElem_map, List.getElem_range]
  exact (hbelow i hi).symm

end Numbers

/-! ### Items in other places -/

section Places
variable {α : Type} [Linked α] {d : Direction} {xs ys : List α} {f : Nat ≃ Nat}

theorem takesPartAt_places (h : ∀ i, ys[i]? = xs[f i]?) : TakesPartAt d ys = TakesPartAt d xs ∘ f := by
  funext i
  simp only [TakesPartAt, h, comp_apply]

theorem dependsAt_places (h : ∀ i, ys[i]? = xs[f i]?) : DependsAt d ys = (DependsAt d xs on f) := by
  funext i j
  simp only [DependsAt, h, onFun, f.injective.ne_iff]

theorem comesAfter_places (h : ∀ i, ys[i]? = xs[f i]?) : ComesAfter d ys = (ComesAfter d xs on f) := by
  funext i j
  cases d <;> simp only [ComesAfter, dependsAt_places h, onFun]

/-- Items that take no part and have come first come first again. -/
theorem exempt_places {k : Nat} (h : ∀ i, ys[i]? = xs[f i]?) (hk : exempt d xs = (List.range k).map f) :
    exempt d ys = List.range k := by
  have hascending : (exempt d ys).Pairwise (· < ·) := ascending_positions _
  refine hascending.eq_of_mem_iff List.pairwise_lt_range fun i => ?_
  rw [mem_exempt, h, ← mem_exempt, hk, mem_map_numbers]

theorem getElem?_order (hf : indices d xs = (List.range xs.length).map f) (hout : ∀ i, xs.length ≤ i → f i = i) (i : Nat) :
    (order d xs)[i]? = xs[f i]? := by
  by_cases hi : i < xs.length
  · have hmap : ((order d xs).map some)[i]? = some xs[f i]? := by
      rw [map_some_order, hf]
      simp [hi]
    rw [List.getElem?_map] at hmap
    cases hx : (order d xs)[i]? with
    | none => simp [hx] at hmap
    | some x => simpa [hx] using hmap
  · have hlen : (order d xs).length = xs.length := perm_order.length_eq
    rw [hout i (by omega), List.getElem?_eq_none (by omega), List.getElem?_eq_none (by omega)]

/-- The items that have been put in order come in the order of their places. -/
theorem indices_order : indices d (order d xs) = List.range xs.length := by
  have hperm : (indices d xs).Perm (List.range xs.length) := perm_indices
  obtain ⟨f, hf, hout⟩ := exists_numbering hperm
  have hget := getElem?_order hf hout
  let k := (exempt d xs).length
  have hk : (List.range xs.length).take k = List.range k := by
    have hle : k ≤ xs.length := by
      have hlen := congrArg List.length hf
      simp only [indices, List.length_append, List.length_map, List.length_range] at hlen
      omega
    rw [List.take_range, Nat.min_eq_left hle]
  have hexempt : exempt d xs = (List.range k).map f := by
    rw [← hk, List.map_take, ← hf, indices, List.take_left]
  have hsteps : (steps d xs).map (·.node) = ((List.range xs.length).drop k).map f := by
    rw [List.map_drop, ← hf, indices, List.drop_left]
  have hsequel : Sequel (ComesAfter d (order d xs)) (TakesPartAt d (order d xs)) [] ((List.range xs.length).drop k) := by
    rw [comesAfter_places hget, takesPartAt_places hget]
    refine Sequel.onFun ?_ (List.pairwise_lt_range.sublist (List.drop_sublist _ _))
    rw [← hsteps]
    exact sequel_steps
  rw [indices, exempt_places hget hexempt, sequel_steps.unique hsequel, ← hk, List.take_append_drop]

/-- What is in order stays so, item by item, cycles or not. -/
theorem order_order (d : Direction) (items : List α) :
    indices d (order d items) = List.range items.length ∧ order d (order d items) = order d items := by
  have hlen : (order d items).length = items.length := perm_order.length_eq
  refine ⟨indices_order, ?_⟩
  rw [order, indices_order, ← hlen, filterMap_range]

end Places

end CatalogSync.Order
