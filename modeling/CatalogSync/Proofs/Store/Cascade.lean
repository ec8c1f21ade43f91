import CatalogSync.Proofs.Store.Contents
import Mathlib.Logic.Relation

/-! A cascade removes what depends on its roots, directly or through others, and nothing else. -/

namespace CatalogSync.LocalStore
open Relation

variable {entities : SortedMap EntityRef Entity} {roots rs : List EntityRef} {a b k r : EntityRef} {e : Entity}

/-- Both are stored, and `a` relates to the identifier of `b`. -/
def Relates (entities : SortedMap EntityRef Entity) (a b : EntityRef) : Prop :=
  entities.contains b ∧ ∃ e, entities.get? a = some e ∧ b.identifier ∈ e.targets

/-- A stored root, or what relates to one, directly or through others. -/
def Taken (entities : SortedMap EntityRef Entity) (roots : List EntityRef) (k : EntityRef) : Prop :=
  ∃ r ∈ roots, entities.contains r ∧ ReflTransGen (Relates entities) k r

theorem contains_erase : (entities.erase r).contains k ↔ k ≠ r ∧ entities.contains k := by
  unfold SortedMap.contains
  rw [SortedMap.get?_erase_eq_ite]
  split <;> simp [*]

theorem relates_erase : Relates (entities.erase r) a b ↔ a ≠ r ∧ b ≠ r ∧ Relates entities a b := by
  unfold Relates
  rw [contains_erase, SortedMap.get?_erase_eq_ite]
  by_cases ha : a = r
  · simp [ha]
  · simp [ha, and_assoc]

theorem mem_dependents (h : WellKeyed entities) :
    k ∈ dependents entities r ↔ ∃ e, entities.get? k = some e ∧ r.identifier ∈ e.targets := by
  simp only [dependents, List.mem_map, List.mem_filter, SortedMap.values, Prod.exists, List.contains_iff_mem]
  constructor
  · rintro ⟨e, ⟨⟨k', e', hmem, rfl⟩, ht⟩, rfl⟩
    have hget := SortedMap.get?_eq_some_iff.mpr hmem
    exact ⟨e', (h k' e' hget).symm ▸ hget, ht⟩
  · rintro ⟨e, hget, ht⟩
    exact ⟨e, ⟨⟨k, e, SortedMap.get?_eq_some_iff.mp hget, rfl⟩, ht⟩, h k e hget⟩

/-! ### One root -/

theorem taken_cons_of_not_contains (hr : ¬ entities.contains r) :
    Taken entities (r :: rs) k ↔ Taken entities rs k := by
  simp only [Taken, List.mem_cons, exists_eq_or_imp]
  exact or_iff_right fun h => hr h.1

theorem reflTransGen_of_erase (h : ReflTransGen (Relates (entities.erase r)) a b) :
    ReflTransGen (Relates entities) a b :=
  ReflTransGen.mono (fun _ _ hab => (relates_erase.mp hab).2.2) _ _ h

/-- A way to a key leads through `r`, last from one that relates to it, or avoids it. -/
theorem reflTransGen_split (h : ReflTransGen (Relates entities) a b) :
    a = r ∨ (∃ x, x ≠ r ∧ Relates entities x r ∧ ReflTransGen (Relates (entities.erase r)) a x) ∨
      (b ≠ r ∧ ReflTransGen (Relates (entities.erase r)) a b) := by
  induction h using ReflTransGen.head_induction_on with
  | refl => exact or_iff_not_imp_left.mpr fun hb => .inr ⟨hb, .refl⟩
  | @head a c hac _ ih =>
    by_cases ha : a = r
    · exact .inl ha
    refine .inr ?_
    by_cases hc : c = r
    · exact .inl ⟨a, ha, hc ▸ hac, .refl⟩
    · have hstep := relates_erase.mpr ⟨ha, hc, hac⟩
      rcases ih.resolve_left hc with ⟨x, hx, hxr, hcx⟩ | ⟨hb, hcb⟩
      · exact .inl ⟨x, hx, hxr, .head hstep hcx⟩
      · exact .inr ⟨hb, .head hstep hcb⟩

theorem taken_cons_of_contains (h : WellKeyed entities) (hr : entities.contains r) :
    Taken entities (r :: rs) k ↔
      k = r ∨ Taken (entities.erase r) ((dependents (entities.erase r) r).reverse ++ rs) k := by
  have hstored : ∀ {x : EntityRef} {e : Entity}, (entities.erase r).get? x = some e → (entities.erase r).contains x :=
    fun hx => by rw [SortedMap.contains, hx]; rfl
  constructor
  · rintro ⟨root, hroot, hstore, hk⟩
    rcases reflTransGen_split (r := r) hk with rfl | ⟨x, hx, ⟨-, e, hget, ht⟩, hkx⟩ | ⟨hne, hkr⟩
    · exact .inl rfl
    · -- the way goes on from `x`, which is a root once `r` is removed
      have hget' : (entities.erase r).get? x = some e := by rw [SortedMap.get?_erase_eq_ite, if_neg hx, hget]
      have hdep := List.mem_reverse.mpr ((mem_dependents h.erase).mpr ⟨e, hget', ht⟩)
      exact .inr ⟨x, List.mem_append_left _ hdep, hstored hget', hkx⟩
    · have hrs := (List.mem_cons.mp hroot).resolve_left hne
      exact .inr ⟨root, List.mem_append_right _ hrs, contains_erase.mpr ⟨hne, hstore⟩, hkr⟩
  · rintro (rfl | ⟨root, hroot, hstore, hk⟩)
    · exact ⟨k, List.mem_cons_self, hr, .refl⟩
    · have hk := reflTransGen_of_erase hk
      rcases List.mem_append.mp hroot with hdep | hrs
      · obtain ⟨e, hget, ht⟩ := (mem_dependents h.erase).mp (List.mem_reverse.mp hdep)
        have hne := (contains_erase.mp (hstored hget)).1
        rw [SortedMap.get?_erase_eq_ite, if_neg hne] at hget
        exact ⟨r, List.mem_cons_self, hr, hk.tail ⟨hr, e, hget, ht⟩⟩
      · exact ⟨root, List.mem_cons_of_mem _ hrs, (contains_erase.mp hstore).2, hk⟩

/-! ### All roots -/

theorem contains_of_taken (h : Taken entities roots k) : entities.contains k := by
  obtain ⟨r, -, hstored, hkr⟩ := h
  obtain rfl | ⟨x, ⟨-, e, hget, -⟩, -⟩ := ReflTransGen.cases_head hkr
  · exact hstored
  · rw [SortedMap.contains, hget]
    rfl

theorem get?_sweep (h : WellKeyed entities) :
    (sweep entities rs).get? k = some e ↔ entities.get? k = some e ∧ ¬ Taken entities rs k := by
  fun_induction sweep entities rs with
  | case1 entities => simp [Taken]
  | case2 entities r rs hr _ ih =>
    rw [ih h.erase, taken_cons_of_contains h hr, SortedMap.get?_erase_eq_ite, not_or]
    by_cases hk : k = r <;> simp [hk]
  | case3 entities r rs hr ih => rw [ih h, taken_cons_of_not_contains hr]

theorem get?_cascade (h : WellKeyed entities) :
    (cascade entities roots).get? k = some e ↔ entities.get? k = some e ∧ ¬ Taken entities roots k := by
  rw [cascade, get?_sweep h]
  simp only [Taken, List.mem_reverse]

theorem contains_cascade (h : WellKeyed entities) :
    (cascade entities roots).contains k ↔ entities.contains k ∧ ¬ Taken entities roots k := by
  simp only [SortedMap.contains, Option.isSome_iff_exists, get?_cascade h, exists_and_right]

/-- What stays is no root and relates to none, directly or through others. -/
theorem contains_cascade_iff (h : WellKeyed entities) : (cascade entities roots).contains k ↔
    entities.contains k ∧ k ∉ roots ∧ ¬ ∃ r ∈ roots, TransGen (Relates entities) k r := by
  rw [contains_cascade h, ← not_or]
  refine and_congr_right fun hk => not_congr ⟨?_, ?_⟩
  · rintro ⟨r, hr, -, hkr⟩
    rcases reflTransGen_iff_eq_or_transGen.mp hkr with rfl | hkr
    · exact .inl hr
    · exact .inr ⟨r, hr, hkr⟩
  · rintro (hr | ⟨r, hr, hkr⟩)
    · exact ⟨k, hr, hk, .refl⟩
    · obtain ⟨x, -, hstored, -⟩ := TransGen.tail'_iff.mp hkr
      exact ⟨r, hr, hstored, hkr.to_reflTransGen⟩

/-- Neither their order nor how often they are listed counts, nor what is not stored. -/
theorem cascade_congr (h : WellKeyed entities) (hroots : ∀ r, entities.contains r → (r ∈ rs ↔ r ∈ roots)) :
    cascade entities rs = cascade entities roots := by
  have htaken : ∀ k, Taken entities rs k ↔ Taken entities roots k := fun k => by
    constructor
    · rintro ⟨r, hr, hstored, hkr⟩
      exact ⟨r, (hroots r hstored).mp hr, hstored, hkr⟩
    · rintro ⟨r, hr, hstored, hkr⟩
      exact ⟨r, (hroots r hstored).mpr hr, hstored, hkr⟩
  refine SortedMap.ext fun k => Option.ext fun e => ?_
  rw [get?_cascade h, get?_cascade h, htaken]

end CatalogSync.LocalStore
