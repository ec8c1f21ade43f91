import CatalogSync.Entity.Sample
import CatalogSync.Proofs.Order.InPlace

/-! In which order the entities of a chain and of a star follow one another.

Their names are one stem and a number behind it. So no two of them are the same and none is that of the hub, whatever
the stem is, and an entity waits for no other than the shape says. -/

namespace CatalogSync

namespace Sample
variable {stem blueprint hub : String} {i j n : Nat}

/-! ### Names -/

theorem numbered_inj : numbered stem i = numbered stem j ↔ i = j := by
  refine ⟨fun h => ?_, congrArg _⟩
  -- the number can be read back from its digits
  have hdigits : Nat.toDigits 10 i = Nat.toDigits 10 j := by
    rw [numbered, numbered, String.append_right_inj, Nat.toString_eq_ofList_toDigits, Nat.toString_eq_ofList_toDigits,
      String.ofList_inj] at h
    exact h
  have hread := congrArg (Nat.ofDigitChars 10 · 0) hdigits
  simpa using hread

theorem numbered_ne_empty : numbered stem i ≠ "" := by
  intro h
  have hlength := congrArg String.length h
  simp [numbered] at hlength

theorem numbered_ne_hub : numbered (hub ++ "-svc") i ≠ hub := by
  intro h
  have hlength := congrArg String.length h
  have hsuffix : "-svc".length = 4 := rfl
  rw [numbered, String.length_append, String.length_append, String.length_append] at hlength
  omega

/-! ### Members -/

/-- What belongs to the hub. -/
def spoke (hub : String) (i : Nat) : Entity :=
  (service (numbered (hub ++ "-svc") i)).withRelation "owner" (.one hub)

theorem star_eq : star hub n = (List.range n).map (spoke hub) ++ [team hub] := rfl

theorem key_link : (link blueprint i).key = ⟨numbered blueprint i, blueprint⟩ := by
  cases i <;> rfl

theorem targets_link : (link blueprint i).targets = if i = 0 then [] else [numbered blueprint (i - 1)] := by
  cases i <;> rfl

theorem usesSearchIdentifier_link : (link blueprint i).usesSearchIdentifier = false := by
  cases i <;> rfl

theorem getElem?_chain {x : Entity} : (chain blueprint n)[i]? = some x ↔ i < n ∧ x = link blueprint i := by
  rw [chain, List.getElem?_eq_some_iff]
  simp [eq_comm]

theorem getElem?_star {x : Entity} : (star hub n)[i]? = some x ↔ i < n ∧ x = spoke hub i ∨ i = n ∧ x = team hub := by
  rw [star_eq, List.getElem?_append, List.length_map, List.length_range]
  by_cases hi : i < n
  · simp [hi, Nat.ne_of_lt hi, eq_comm]
  · rw [if_neg hi, List.getElem?_singleton]
    by_cases hn : i = n
    · simp [hn, eq_comm]
    · have hpast : i - n ≠ 0 := by omega
      simp [hi, hn, hpast]

end Sample

namespace Order
open Sample
variable {d : Direction} {blueprint hub : String} {i j n : Nat}

/-! ### What depends on what -/

theorem takesPart_of_plain {e : Entity} (h : e.usesSearchIdentifier = false) : takesPart d e = true := by
  have huses : Linked.usesSearchIdentifier e = false := h
  rw [takesPart, huses]
  cases d <;> rfl

theorem takesPart_chain : ∀ e ∈ chain blueprint n, takesPart d e = true := by
  intro e he
  obtain ⟨i, -, rfl⟩ := List.mem_map.mp he
  exact takesPart_of_plain usesSearchIdentifier_link

theorem takesPart_star : ∀ e ∈ star hub n, takesPart d e = true := by
  intro e he
  rw [star_eq] at he
  rcases List.mem_append.mp he with he | he
  · obtain ⟨i, -, rfl⟩ := List.mem_map.mp he
    exact takesPart_of_plain rfl
  · obtain rfl := List.mem_singleton.mp he
    exact takesPart_of_plain rfl

theorem dependsOn_link : dependsOn (link blueprint i) (link blueprint j) = true ↔ i = j + 1 := by
  have htargets : Linked.targets (link blueprint i) = _ := targets_link
  have hidentifier : Keyed.identifier (link blueprint j) = numbered blueprint j := congrArg (·.identifier) key_link
  rw [dependsOn, htargets, hidentifier]
  cases i with
  | zero => simp
  | succ i => simp [numbered_inj, eq_comm]

theorem dependsAt_chain : DependsAt d (chain blueprint n) i j ↔ i < n ∧ i = j + 1 := by
  constructor
  · rintro ⟨-, x, hx, y, hy, -, -, hdepends⟩
    obtain ⟨hi, rfl⟩ := getElem?_chain.mp hx
    obtain ⟨-, rfl⟩ := getElem?_chain.mp hy
    exact ⟨hi, dependsOn_link.mp hdepends⟩
  · rintro ⟨hi, rfl⟩
    have hj : j < n := Nat.lt_of_succ_lt hi
    exact ⟨Nat.succ_ne_self j, _, getElem?_chain.mpr ⟨hi, rfl⟩, _, getElem?_chain.mpr ⟨hj, rfl⟩,
      takesPart_of_plain usesSearchIdentifier_link, takesPart_of_plain usesSearchIdentifier_link, dependsOn_link.mpr rfl⟩

theorem dependsAt_star : DependsAt d (star hub n) i j ↔ i < n ∧ j = n := by
  constructor
  · rintro ⟨-, x, hx, y, hy, -, -, hdepends⟩
    rcases getElem?_star.mp hx with ⟨hi, rfl⟩ | ⟨rfl, rfl⟩
    · rcases getElem?_star.mp hy with ⟨hj, rfl⟩ | ⟨rfl, rfl⟩
      · have hname : numbered (hub ++ "-svc") j = hub := List.mem_singleton.mp (List.contains_iff_mem.mp hdepends)
        exact absurd hname numbered_ne_hub
      · exact ⟨hi, rfl⟩
    · cases hdepends
  · rintro ⟨hi, rfl⟩
    refine ⟨Nat.ne_of_lt hi, _, getElem?_star.mpr (.inl ⟨hi, rfl⟩), _, getElem?_star.mpr (.inr ⟨rfl, rfl⟩),
      takesPart_of_plain rfl, takesPart_of_plain rfl, ?_⟩
    exact List.contains_iff_mem.mpr (List.mem_singleton.mpr rfl)

/-! ### The orders -/

theorem length_chain : (chain blueprint n).length = n := by simp [chain]

theorem length_star : (star hub n).length = n + 1 := by simp [star_eq]

theorem indices_chain_creation : indices .creation (chain blueprint n) = List.range n := by
  have horder := indices_eq_range (d := .creation) takesPart_chain fun i j (h : DependsAt _ (chain blueprint n) i j) => by
    obtain ⟨-, rfl⟩ := dependsAt_chain.mp h
    exact Nat.lt_succ_self j
  rwa [length_chain] at horder

theorem indices_star_deletion : indices .deletion (star hub n) = List.range (n + 1) := by
  have horder := indices_eq_range (d := .deletion) takesPart_star fun i j (h : DependsAt _ (star hub n) j i) => by
    obtain ⟨hj, rfl⟩ := dependsAt_star.mp h
    exact hj
  rwa [length_star] at horder

theorem filterMap_range_chain : (List.range n).filterMap ((chain blueprint n)[·]?) = chain blueprint n := by
  have hall : (List.range (chain blueprint n).length).filterMap ((chain blueprint n)[·]?) = _ := filterMap_range
  rwa [length_chain] at hall

theorem order_chain_creation : order .creation (chain blueprint n) = chain blueprint n := by
  rw [order, indices_chain_creation, filterMap_range_chain]

/-- No link but the last pending one is free: the one behind it has not come. -/
theorem indices_chain_deletion : indices .deletion (chain blueprint n) = (List.range n).reverse := by
  refine indices_eq_of_isLeast takesPart_chain (by rw [length_chain]; exact List.reverse_perm _) ?_
  intro pre v post hsplit
  have hmem : ∀ u, u < n ↔ u ∈ pre ++ v :: post := fun u => by rw [← hsplit, List.mem_reverse, List.mem_range]
  have hdescending : (pre ++ v :: post).Pairwise fun a b => b < a :=
    hsplit ▸ List.pairwise_reverse.mpr List.pairwise_lt_range
  obtain ⟨-, hbehind, hbefore⟩ := List.pairwise_append.mp hdescending
  obtain ⟨hpost, -⟩ := List.pairwise_cons.mp hbehind
  refine ⟨⟨List.mem_cons_self, fun u (hu : DependsAt _ _ u v) => ?_⟩, fun u ⟨hu, hfree⟩ => ?_⟩
  · obtain ⟨hlt, rfl⟩ := dependsAt_chain.mp hu
    refine (List.mem_append.mp ((hmem _).mp hlt)).resolve_right fun hrest => ?_
    rcases List.mem_cons.mp hrest with heq | hlater
    · exact Nat.succ_ne_self v heq
    · exact absurd (hpost _ hlater) (Nat.not_lt.mpr (Nat.le_succ v))
  · rcases List.mem_cons.mp hu with rfl | hlater
    · exact Nat.le_refl u
    · -- A lower one waits for the one right behind it, which has come only if it comes before `v`.
      have hlast : v < n := (hmem v).mpr (by simp)
      have hwaits : DependsAt .deletion (chain blueprint n) (u + 1) u :=
        dependsAt_chain.mpr ⟨Nat.lt_of_le_of_lt (hpost u hlater) hlast, rfl⟩
      exact Nat.le_of_lt_succ (hbefore (u + 1) (hfree (u + 1) hwaits) v List.mem_cons_self)

theorem order_chain_deletion : order .deletion (chain blueprint n) = (chain blueprint n).reverse := by
  rw [order, indices_chain_deletion, List.filterMap_reverse, filterMap_range_chain]

/-- Nothing but the hub is free before it has come; then everything is. -/
theorem indices_star_creation : indices .creation (star hub n) = n :: List.range n := by
  refine indices_eq_of_isLeast takesPart_star ?_ fun pre v post hsplit => ?_
  · rw [length_star, List.range_succ]
    exact (List.perm_append_singleton _ _).symm
  rcases List.cons_eq_append_iff.mp hsplit with ⟨rfl, hhub⟩ | ⟨pre, rfl, hrange⟩
  · obtain ⟨rfl, rfl⟩ := List.cons.inj hhub
    refine ⟨⟨List.mem_cons_self, fun u (hu : DependsAt _ _ v u) => ?_⟩, fun u ⟨hu, hfree⟩ => ?_⟩
    · exact absurd (dependsAt_star.mp hu).1 (Nat.lt_irrefl v)
    · rcases List.mem_cons.mp hu with rfl | hu
      · exact Nat.le_refl u
      · have hwaits : DependsAt .creation (star hub v) u v := dependsAt_star.mpr ⟨List.mem_range.mp hu, rfl⟩
        cases hfree v hwaits
  · refine ⟨⟨List.mem_cons_self, fun u (hu : DependsAt _ _ v u) => ?_⟩, fun u ⟨hu, _⟩ => le_of_split hrange hu⟩
    obtain ⟨-, rfl⟩ := dependsAt_star.mp hu
    exact List.mem_cons_self

end Order
end CatalogSync
