import Mathlib.Data.Set.Card
import Mathlib.Logic.Relation
import Mathlib.Order.Bounds.Basic
import Mathlib.Order.Minimal

/-! Which node comes next, said of nothing but what must come before what.

`R v u` says that `u` must come before `v`, and `T v` that `v` takes part. The lowest node that is free comes next;
where none is free, the lowest one of a component that waits for nothing outside itself. There always is such a
component: of the pending nodes that a node waits for, through others perhaps, there are no more for one that it
waits for, and where there are as many the two wait for one another. -/

namespace CatalogSync.Order
open Relation

variable {R : Nat → Nat → Prop} {T : Nat → Prop} {past : List Nat} {u v : Nat}

/-- Each must come before the other, perhaps through others. -/
def Entangled (R : Nat → Nat → Prop) (u v : Nat) : Prop := ReflTransGen R u v ∧ ReflTransGen R v u

def Pending (T : Nat → Prop) (past : List Nat) (v : Nat) : Prop := T v ∧ v ∉ past

/-- All that must come before `v` has come. -/
def Free (R : Nat → Nat → Prop) (past : List Nat) (v : Nat) : Prop := ∀ u, R v u → u ∈ past

/-- No pending node that is entangled with `v` waits for one that is not. -/
def Enterable (R : Nat → Nat → Prop) (T : Nat → Prop) (past : List Nat) (v : Nat) : Prop :=
  ∀ m, Pending T past m → Entangled R v m → ∀ u, R m u → u ∉ past → Entangled R v u

def IsNext (R : Nat → Nat → Prop) (T : Nat → Prop) (past : List Nat) (v : Nat) : Prop :=
  IsLeast {u | Pending T past u ∧ Free R past u} v ∨
    ((∀ u, Pending T past u → ¬ Free R past u) ∧ IsLeast {u | Pending T past u ∧ Enterable R T past u} v)

/-- How the nodes follow one another once those in `past` have come. -/
inductive Sequel (R : Nat → Nat → Prop) (T : Nat → Prop) : List Nat → List Nat → Prop
  | done {past : List Nat} (h : ∀ v, ¬ Pending T past v) : Sequel R T past []
  | next {past rest : List Nat} {v : Nat} (h : IsNext R T past v) (hr : Sequel R T (past ++ [v]) rest) :
      Sequel R T past (v :: rest)

namespace Entangled

theorem refl (R : Nat → Nat → Prop) (v : Nat) : Entangled R v v := ⟨.refl, .refl⟩

theorem symm (h : Entangled R u v) : Entangled R v u := ⟨h.2, h.1⟩

theorem trans {w : Nat} (h : Entangled R u v) (h' : Entangled R v w) : Entangled R u w :=
  ⟨h.1.trans h'.1, h'.2.trans h.2⟩

end Entangled

namespace IsNext

theorem pending (h : IsNext R T past v) : Pending T past v := by
  rcases h with h | ⟨-, h⟩
  · exact h.1.1
  · exact h.1.1

/-- What comes next waits only for what waits for it. -/
theorem entangled (h : IsNext R T past v) (hu : R v u) (hp : u ∉ past) : Entangled R v u := by
  rcases h with h | ⟨-, h⟩
  · exact absurd (h.1.2 u hu) hp
  · exact h.1.2 v h.1.1 (.refl R v) u hu hp

theorem unique (h : IsNext R T past u) (h' : IsNext R T past v) : u = v := by
  rcases h with h | ⟨hn, h⟩ <;> rcases h' with h' | ⟨hn', h'⟩
  · exact h.unique h'
  · exact absurd h.1.2 (hn' u h.1.1)
  · exact absurd h'.1.2 (hn v h'.1.1)
  · exact h.unique h'

end IsNext

namespace Sequel

theorem unique {xs ys : List Nat} (h : Sequel R T past xs) (h' : Sequel R T past ys) : xs = ys := by
  induction h generalizing ys with
  | done h =>
    cases h' with
    | done _ => rfl
    | next h' _ => exact absurd h'.pending (h _)
  | next h _ ih =>
    cases h' with
    | done h' => exact absurd h.pending (h' _)
    | next h' hr' =>
      obtain rfl := h.unique h'
      rw [ih hr']

theorem mem {xs : List Nat} (h : Sequel R T past xs) (hv : Pending T past v) : v ∈ xs := by
  induction h with
  | done h => exact absurd hv (h v)
  | @next past rest u _ _ ih =>
    by_cases hvu : v = u
    · exact hvu ▸ List.mem_cons_self
    · exact List.mem_cons_of_mem _ (ih ⟨hv.1, by simpa [hvu] using hv.2⟩)

theorem of_splits {xs : List Nat} (hnext : ∀ pre v post, xs = pre ++ v :: post → IsNext R T (past ++ pre) v)
    (hall : ∀ v, Pending T past v → v ∈ xs) : Sequel R T past xs := by
  induction xs generalizing past with
  | nil => exact .done fun v hv => List.not_mem_nil (hall v hv)
  | cons x xs ih =>
    refine .next (by simpa using hnext [] x xs rfl) (ih (fun pre v post h => ?_) fun v hv => ?_)
    · simpa using hnext (x :: pre) v post (by rw [h]; rfl)
    · obtain ⟨hnot, hne⟩ : v ∉ past ∧ v ≠ x := by simpa using hv.2
      exact (List.mem_cons.mp (hall v ⟨hv.1, hnot⟩)).resolve_left hne

/-- Each node is free when it comes, and no lower one of those behind it is. -/
theorem of_isLeast {xs : List Nat} (hT : ∀ v, T v ↔ v ∈ xs) (hn : xs.Nodup)
    (hleast : ∀ pre v post, xs = pre ++ v :: post → IsLeast {u | u ∈ v :: post ∧ Free R pre u} v) :
    Sequel R T [] xs := by
  refine .of_splits (fun pre v post h => .inl ?_) fun v hv => (hT v).mp hv.1
  obtain ⟨⟨-, hfree⟩, hmin⟩ := hleast pre v post h
  have hv : v ∉ pre := (List.nodup_middle.mp (h ▸ hn)).notMem ∘ List.mem_append_left post
  refine ⟨⟨⟨(hT v).mpr (by rw [h]; simp), hv⟩, hfree⟩, fun u ⟨⟨hu, hpre⟩, hfree⟩ => hmin ⟨?_, hfree⟩⟩
  rw [hT, h] at hu
  exact (List.mem_append.mp hu).resolve_left hpre

end Sequel

/-- Where a node is pending, there is one of a component that waits for nothing outside itself. -/
theorem exists_enterable (hfin : {v | T v}.Finite) (hT : ∀ v u, T v → R v u → T u) (hv : Pending T past v) :
    ∃ w, Pending T past w ∧ Enterable R T past w := by
  -- the pending nodes that a node leads to: they only get fewer along an edge
  let ahead (w : Nat) : Set Nat := {u | Pending T past u ∧ ReflTransGen R w u}
  obtain ⟨w, hw, hmin⟩ := exists_minimalFor_of_wellFoundedLT (Pending T past) (fun w => (ahead w).ncard) ⟨v, hv⟩
  refine ⟨w, hw, fun m hm hwm u hmu hu => ?_⟩
  have hup : Pending T past u := ⟨hT m u hm.1 hmu, hu⟩
  have hwu : ReflTransGen R w u := hwm.1.tail hmu
  have hsub : ahead u ⊆ ahead w := fun x hx => ⟨hx.1, hwu.trans hx.2⟩
  have hfinite : (ahead w).Finite := hfin.subset fun x hx => hx.1.1
  have heq : ahead u = ahead w :=
    Set.eq_of_subset_of_ncard_le hsub (hmin hup (Set.ncard_le_ncard hsub hfinite)) hfinite
  have hmem : w ∈ ahead u := heq ▸ ⟨hw, .refl⟩
  exact ⟨hwu, hmem.2⟩

/-! ### Components -/

/-- The components of two members or more. -/
def knots (R : Nat → Nat → Prop) (T : Nat → Prop) : Set (Set Nat) :=
  {C | C.Nontrivial ∧ ∃ v, T v ∧ C = {u | Entangled R v u}}

theorem Entangled.component_eq (h : Entangled R v u) : {x | Entangled R u x} = {x | Entangled R v x} :=
  Set.ext fun _ => ⟨h.trans, h.symm.trans⟩

theorem Entangled.takesPart (h : Entangled R v u) (hT : ∀ v u, T v → R v u → T u) (hv : T v) : T u := by
  obtain ⟨h, -⟩ := h
  induction h with
  | refl => exact hv
  | tail _ hd ih => exact hT _ _ ih hd

/-- Whether a component can be entered is the same for all its members. -/
theorem Enterable.of_entangled (h : Enterable R T past v) (hvu : Entangled R v u) : Enterable R T past u :=
  fun m hm hum x hmx hx => hvu.symm.trans (h m hm (hvu.trans hum) x hmx hx)

/-- The first member of a component that comes does not come free. -/
theorem not_free_of_entangled (h : Entangled R v u) (hne : u ≠ v) (hfirst : ∀ w ∈ past, ¬ Entangled R v w) :
    ¬ Free R past v := by
  intro hfree
  obtain rfl | ⟨w, hvw, hwu⟩ := ReflTransGen.cases_head h.1
  · exact hne rfl
  · exact hfirst w (hfree w hvw) ⟨.single hvw, hwu.trans h.2⟩

/-- Where nothing must come before itself, a component of two members or more is a cycle. -/
theorem knots_eq_empty_iff (hirrefl : ∀ v, ¬ R v v) (hT : ∀ v u, R v u → T v) :
    knots R T = ∅ ↔ ∀ v, ¬ TransGen R v v := by
  constructor
  · intro hnone v hv
    obtain ⟨u, hvu, huv⟩ := TransGen.head'_iff.mp hv
    have hne : v ≠ u := fun h => hirrefl v (by rwa [← h] at hvu)
    have hmem : {x | Entangled R v x} ∈ knots R T :=
      ⟨⟨v, .refl R v, u, ⟨.single hvu, huv⟩, hne⟩, v, hT v u hvu, rfl⟩
    rw [hnone] at hmem
    exact hmem
  · intro hacyclic
    refine Set.eq_empty_of_forall_notMem fun C hC => ?_
    obtain ⟨⟨x, hx, y, hy, hne⟩, v, -, rfl⟩ := hC
    have hxy : Entangled R x y := Entangled.trans (Entangled.symm hx) hy
    obtain rfl | ⟨w, hxw, hwy⟩ := ReflTransGen.cases_head hxy.1
    · exact hne rfl
    · exact hacyclic x (.head' hxw (hwy.trans hxy.2))

end CatalogSync.Order
